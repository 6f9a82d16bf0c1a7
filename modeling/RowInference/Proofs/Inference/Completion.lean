import RowInference.Proofs.Inference.Consistency
import RowInference.Proofs.Inference.Knowledge

/-! # Completed trees

When the inference of a tree is done, what has been learnt is applied to the types on all nodes. What has been learnt is
itself a valuation under which all its equations hold, so the completed tree keeps to the typing rules. A declaration in
an environment without free variables gets a scheme without free variables.
-/

namespace RowInference

variable {limit : Nat} {state after : InferState}

/-! ## Runs -/

/-- An expression that stands alone is inferred without earlier knowledge, and then completed. -/
theorem Expr.inferClosed_run (limit : Nat) (expr : Expr Span) (state : InferState) :
    expr.inferClosed limit state = match expr.infer limit { state with subst := {} } with
      | (.ok typed, mid) => (.ok (typed.mapInfo (Typed.resolve mid.subst)), { mid with subst := {} })
      | (.error error, mid) => (.error error, mid) := by
  rw [inferClosed, bind_run]
  change (expr.infer limit >>= _) { state with subst := {} } = _
  rw [bind_run]
  rcases expr.infer limit { state with subst := {} } with ⟨_ | typed, mid⟩ <;> rfl

/-- A completed expression comes from a run without earlier knowledge. -/
theorem Expr.of_inferClosed {expr : Expr Span} {result : Expr Typed}
    (success : expr.inferClosed limit state = (.ok result, after)) :
    ∃ typed mid, expr.infer limit { state with subst := {} } = (.ok typed, mid) ∧
      result = typed.mapInfo (Typed.resolve mid.subst) ∧ after = { mid with subst := {} } := by
  rw [inferClosed_run] at success
  rcases ran : expr.infer limit { state with subst := {} } with ⟨_ | typed, mid⟩ <;>
    rw [ran] at success <;> cases success
  exact ⟨typed, mid, rfl, rfl, rfl⟩

/-- The state in which the parameters and the body of a declaration are inferred. -/
def InferState.started (state : InferState) : InferState :=
  { state with subst := {}, supply := ⟨state.supply.issued + 1⟩ }

/-- The type of a declaration at its start. -/
def InferState.self (state : InferState) : Ty := .var ⟨.generated state.supply.issued, none⟩

/-- A declaration is inferred by its parameters and its body. -/
theorem Declaration.infer_run (limit : Nat) (declaration : Declaration Span) (state : InferState) :
    declaration.infer limit state = match inferBody limit state.self declaration state.started with
      | (.ok (params, body), mid) =>
        let scheme := generalize (mid.env.freeIds mid.subst) (mid.subst.apply state.self)
        (.ok {
          name := declaration.name
          params := params.map (Pattern.mapInfo (Typed.resolve mid.subst))
          body := body.mapInfo (Typed.resolve mid.subst)
          info := ⟨declaration.info, scheme⟩ },
        { mid with
          subst := {}
          env := mid.env.add declaration.name scheme
          events := .declared declaration.name scheme :: mid.events })
      | (.error error, mid) => (.error error, mid) := by
  rw [infer, bind_run]
  change (InferM.fresh none >>= _) { state with subst := {} } = _
  rw [bind_run, InferM.fresh_run]
  change (inferBody limit state.self declaration >>= _) state.started = _
  rw [bind_run]
  rcases inferBody limit state.self declaration state.started with ⟨_ | ⟨params, body⟩, mid⟩ <;> rfl

/-- A completed declaration comes from a run without earlier knowledge. -/
theorem Declaration.of_infer {declaration : Declaration Span} {typed : Declaration Typed}
    (success : declaration.infer limit state = (.ok typed, after)) :
    ∃ params body mid, inferBody limit state.self declaration state.started = (.ok (params, body), mid) ∧
      typed.name = declaration.name ∧ typed.params = params.map (Pattern.mapInfo (Typed.resolve mid.subst)) ∧
      typed.body = body.mapInfo (Typed.resolve mid.subst) ∧
      typed.info = ⟨declaration.info, generalize (mid.env.freeIds mid.subst) (mid.subst.apply state.self)⟩ ∧
      after.env = mid.env.add declaration.name typed.info.scheme ∧ after.supply = mid.supply := by
  rw [infer_run] at success
  rcases ran : inferBody limit state.self declaration state.started with ⟨_ | ⟨params, body⟩, mid⟩
  · rw [ran] at success
    cases success
  · rw [ran] at success
    cases success
    exact ⟨params, body, mid, rfl, rfl, rfl, rfl, rfl, rfl, rfl⟩

/-! ## Declarations -/

namespace Declaration

variable {discipline : Discipline} {world : discipline.World} {scene : Scene} {valuation : Valuation}
  {context : Context}

/-- The parameters and the body of a declaration are safe, with a type for its own name in scope. -/
theorem bodyScript_safe (limit : Nat) {self : Ty} (declaration : Declaration Span)
    (selfFine : discipline.Fine world self)
    {ends : discipline.World → Scene → List (Pattern Typed) × Expr Typed → Prop}
    (finish : ∀ later ≥ world, ∀ scene' : Scene, scene'.env = scene.env →
      ∀ (params : List (Pattern Typed)) (body : Expr Typed), discipline.FineInfos later (Pattern.infosOf params) →
      discipline.FineInfos later body.infos → ends later scene' (params, body)) :
    (bodyScript limit self declaration).Safe discipline world scene ends := by
  simp only [bodyScript, Script.Safe]
  refine ⟨discipline.fine_mono_scheme selfFine, ?_⟩
  refine Expr.paramsScript_safe limit declaration.params fun world₁ le₁ scene₁ outer params paramsFine => ?_
  refine Expr.script_walks limit declaration.body fun world₂ le₂ scene₂ env body bodyFine => ?_
  refine ⟨discipline.fine_mono (le_trans le₁ le₂) selfFine,
    Expr.fine_functionType (paramsFine.mono le₂) bodyFine, fun world₃ le₃ issued => ?_⟩
  have restored : scene₂.env.exit = scene.env := Environment.exit_of_outer (by rw [env, outer]; rfl)
  exact finish world₃ (le_trans le₁ (le_trans le₂ le₃)) ⟨scene₂.env.exit, scene₂.bound, issued⟩ restored params body
    (paramsFine.mono (le_trans le₂ le₃)) (bodyFine.mono le₃)

/-- The parameters and the body of a declaration are inferred with a variable for its type. -/
theorem bodyScript_sound (limit : Nat) (declaration : Declaration Span)
    (start : discipline.Inv world { state with subst := {} }) :
    ∃ first ≥ world, discipline.Inv first state.started ∧ discipline.Fine first state.self ∧
      ∃ last, (bodyScript limit state.self declaration).Sound first state.started (fun later scene result =>
        scene.env = state.env ∧ first ≤ later ∧ discipline.FineInfos later (Pattern.infosOf result.1) ∧
          discipline.FineInfos later result.2.infos) last := by
  obtain ⟨first, le, holds, selfFine, _⟩ := discipline.issue none start.holds
  have begun : discipline.Inv first state.started := start.step le holds rfl
  have safe : (bodyScript limit state.self declaration).Safe discipline first state.started.scene
      fun later scene result => scene.env = state.env ∧ first ≤ later ∧
        discipline.FineInfos later (Pattern.infosOf result.1) ∧ discipline.FineInfos later result.2.infos :=
    bodyScript_safe limit declaration selfFine fun _ grown _ env _ _ paramsFine bodyFine =>
      ⟨env, grown, paramsFine, bodyFine⟩
  exact ⟨first, le, begun, selfFine, safe.sound _ begun⟩

/-- What is inferred for the parameters and the body of a declaration is consistent. -/
theorem bodyScript_under (limit : Nat) {self : Ty} (declaration : Declaration Span)
    (shows : scene.env.Shows valuation context) {ends : Scene → List (Pattern Typed) × Expr Typed → Prop}
    (finish : ∀ after : Scene, ∀ params body,
      let type := functionType (params.map (Pattern.under valuation)) (Expr.under valuation body)
      Expr.FunctionFits valuation declaration.params declaration.body (context.addAll [(declaration.name, type)]) params
        body → self.read valuation = type → after.env = scene.env → ends after (params, body)) :
    (bodyScript limit self declaration).Under valuation scene ends := by
  simp only [bodyScript, Script.Under]
  have inside := shows.enter.add declaration.name self
  refine Expr.paramsScript_under limit declaration.params (by exact inside)
    fun scene₁ params source paramsOk distinct shows₁ outer => ?_
  refine Expr.script_settles limit declaration.body shows₁ fun scene₂ body fits same issued => ?_
  rw [← functionType_under] at same
  have restored : scene₂.env.exit = scene.env := Environment.exit_of_outer (by rw [fits.env, outer]; rfl)
  refine finish ⟨scene₂.env.exit, scene₂.bound, issued⟩ params body
    ⟨source, fits.source, paramsOk, distinct, ?_⟩ same restored
  rw [← same]
  exact fits.ok

end Declaration

/-! ## Environments without free variables -/

/-- A scheme without free variables, whose generated variables have been issued. -/
structure Scheme.Closed (issued : Nat) (scheme : Scheme) : Prop where
  canonical : scheme.body.Canonical
  flat : scheme.body.Flat
  coherent : scheme.Coherent
  closed : ∀ v ∈ scheme.body.occurrences, scheme.binds v.id = true
  issued : ∀ v ∈ scheme.binders ++ scheme.body.occurrences, ∀ index, v.id = .generated index → index < issued

/-- The generated variables with an index below a number, all of them without a constraint. -/
def Signature.upTo (issued : Nat) : Signature
  | .generated index => if index < issued then some none else none
  | .named _ => none

theorem Signature.issued_upTo (issued : Nat) : (upTo issued).Issued issued := by
  intro index known
  rw [upTo] at known
  by_contra above
  exact known (if_neg above)

namespace Scheme.Closed

variable {scheme : Scheme} {issued later : Nat}

theorem mono_le (closed : scheme.Closed issued) (le : issued ≤ later) : scheme.Closed later :=
  { closed with issued := fun v member index isGenerated =>
      Nat.lt_of_lt_of_le (closed.issued v member index isGenerated) le }

/-- A closed scheme uses only variables that have been issued. -/
theorem within (closed : scheme.Closed issued) : scheme.Within (.upTo issued) where
  canonical := closed.canonical
  flat := closed.flat
  coherent := closed.coherent
  free v inBody isFree := by
    rw [closed.closed v inBody] at isFree
    cases isFree
  issued v member index isGenerated := by
    rw [isGenerated, Signature.upTo, if_pos (closed.issued v member index isGenerated)]
    exact Option.some_ne_none _

/-- A scheme that uses only issued variables and has none of them free is closed. -/
theorem of_within (within : scheme.Within (.upTo issued))
    (closed : ∀ v ∈ scheme.body.occurrences, scheme.binds v.id = true) : scheme.Closed issued where
  canonical := within.canonical
  flat := within.flat
  coherent := within.coherent
  closed := closed
  issued v member index isGenerated := by
    have inPlay := within.issued v member index isGenerated
    rw [isGenerated] at inPlay
    exact Signature.issued_upTo issued index inPlay

theorem simple (closed : scheme.Closed issued) : scheme.Simple := .inr closed.closed

/-- A valuation does not change a closed scheme. -/
theorem read_eq (closed : scheme.Closed issued) (valuation : Valuation) : scheme.read valuation = scheme := by
  rw [Scheme.read]
  split
  · next plain =>
    rw [isMono, List.isEmpty_iff] at plain
    have none : scheme.body.occurrences = [] := by
      rw [List.eq_nil_iff_forall_not_mem]
      intro v inBody
      have bound := closed.closed v inBody
      simp [binds, plain] at bound
    have same : scheme.body.read valuation = scheme.body :=
      Ty.mapVars_eq_self closed.flat (by simp [none])
    rw [same, mono, ← plain]
  · rfl

/-- A type with known variables, all of them quantified. -/
theorem of_type {sig : Signature} {type : Ty} (within : type.Within sig) (below : sig.Issued issued) :
    (Scheme.closed type).Closed issued where
  canonical := within.canonical
  flat := within.flat
  coherent := by
    intro binder member other otherMember same
    have known := within.known binder (List.mem_eraseDups.mp member)
    rw [same, within.known other (List.mem_eraseDups.mp otherMember)] at known
    exact (Option.some.inj known).symm
  closed := closed_binds type
  issued v member index isGenerated := by
    have inType : v ∈ type.occurrences := (List.mem_append.mp member).elim List.mem_eraseDups.mp id
    refine below index ?_
    rw [← isGenerated, within.known v inType]
    exact Option.some_ne_none _

/-- The variables of a scheme without free variables are out of the reach of a substitution. -/
theorem unbound (closed : scheme.Closed issued) (subst : Substitution) :
    ∀ v ∈ scheme.body.occurrences, (subst.without scheme.binders)[v.id]? = none := by
  intro v inBody
  obtain ⟨binder, member, same⟩ := binds_iff.mp (closed.closed v inBody)
  rw [← same]
  exact Substitution.getElem?_without_of_mem member

/-- What has been learnt does not show in a scheme without free variables. -/
theorem freeVars_applyScheme (closed : scheme.Closed issued) (subst : Substitution) :
    (subst.applyScheme scheme).freeVars = [] := by
  have same : (subst.applyScheme scheme).body = scheme.body :=
    Substitution.apply_eq_self closed.flat (closed.unbound subst)
  rw [freeVars, same, List.filter_eq_nil_iff]
  intro v inBody
  have bound : (subst.applyScheme scheme).binds v.id = true := closed.closed v (List.mem_eraseDups.mp inBody)
  simp [bound]

end Scheme.Closed

theorem values_eq_map_toList (scope : Scope) : scope.values = scope.toList.map Prod.snd := by
  rcases scope with ⟨⟨entries⟩⟩
  induction entries using Quotient.ind with
  | _ tree =>
    change tree.inner.values = (Std.DTreeMap.Internal.Impl.Const.toList tree.inner).map Prod.snd
    rw [Std.DTreeMap.Internal.Impl.values_eq_map_snd, Std.DTreeMap.Internal.Impl.Const.toList_eq_toListModel_map,
      List.map_map]
    rfl

/-- Nothing is free in an environment of such schemes. -/
theorem Environment.freeIds_eq_nil {env : Environment} {issued : Nat} (closed : env.All (Scheme.Closed issued))
    (subst : Substitution) : env.freeIds subst = [] := by
  have none : (env.scopes.flatMap fun scope => scope.values).flatMap
      (fun scheme => (subst.applyScheme scheme).freeVars) = [] := by
    rw [List.flatMap_eq_nil_iff]
    intro scheme member
    obtain ⟨scope, inScopes, inScope⟩ := List.mem_flatMap.mp member
    rw [values_eq_map_toList, List.mem_map] at inScope
    obtain ⟨⟨name, _⟩, entry, rfl⟩ := inScope
    exact (closed scope inScopes (Std.ExtTreeMap.mem_toList_iff_getElem?_eq_some.mp entry)).freeVars_applyScheme subst
  rw [freeIds, none]
  rfl

/-- Where all schemes are closed, an environment shows the same under every valuation. -/
theorem Environment.Shows.of_closed {env : Environment} {issued : Nat} (closed : env.All (Scheme.Closed issued))
    {valuation : Valuation} (flat : valuation.Flat) : env.Shows valuation env.get? where
  flat := flat
  simple := closed.imp fun _ schemeClosed => schemeClosed.simple
  shown name := by
    cases found : env.get? name with
    | none => rfl
    | some scheme => rw [Option.map_some, (closed.get? found).read_eq]

/-! ## Completed types -/

theorem Typed.type_resolve {typed : Typed} (plain : typed.scheme.binders = []) (subst : Substitution) :
    (typed.resolve subst).type = subst.apply typed.type := by
  rw [Typed.resolve, Typed.type, Substitution.applyScheme, plain]
  rfl

/-- Whatever an inference returns, it has a property. -/
def InferM.Ensures {α : Type} (holds : α → Prop) (action : InferM α) : Prop :=
  ∀ ⦃state : InferState⦄ ⦃value : α⦄ ⦃after : InferState⦄, action state = (.ok value, after) → holds value

namespace InferM.Ensures

variable {α β : Type} {holds : α → Prop}

theorem pure {value : α} (here : holds value) : Ensures holds (Pure.pure value) :=
  fun _ _ _ success => (pure_eq_ok.mp success).1 ▸ here

/-- What the last step ensures is ensured by the whole. -/
theorem bind {action : InferM β} {next : β → InferM α} (rest : ∀ value, Ensures holds (next value)) :
    Ensures holds (action >>= next) := by
  intro state value after success
  obtain ⟨first, mid, _, ran⟩ := bind_eq_ok.mp success
  exact rest first ran

theorem nested {limit : Nat} {span : Span} {action : InferM α} (inner : Ensures holds action) :
    Ensures holds (InferM.nested limit span action) := by
  intro state value after success
  rw [nested_run] at success
  split at success
  · cases success
  · rcases ran : action { state with depth := state.depth + 1 } with ⟨result, mid⟩
    rw [ran] at success
    obtain rfl : result = .ok value := congrArg Prod.fst success
    exact inner ran

end InferM.Ensures

/-- The outermost node of an inferred expression carries a plain type. -/
theorem Expr.infer_plain (limit : Nat) :
    ∀ expr : Expr Span, (expr.infer limit).Ensures fun typed => typed.info.scheme.binders = []
  | .unit _ | .float .. | .string .. | .char .. => .nested (.pure rfl)
  | .integer .. | .hex .. | .var .. | .lambda .. | .record .. | .parenthesized .. | .operator .. | .letIn .. =>
    .nested (.bind fun _ => .pure rfl)
  | .tuple .. | .list .. | .accessor .. | .application .. => .nested (.bind fun _ => .bind fun _ => .pure rfl)
  | .triple .. | .operation .. | .negate .. | .caseOf .. =>
    .nested (.bind fun _ => .bind fun _ => .bind fun _ => .pure rfl)
  | .access .. | .update .. => .nested (.bind fun _ => .bind fun _ => .bind fun _ => .bind fun _ => .pure rfl)
  | .conditional .. =>
    .nested (.bind fun _ => .bind fun _ => .bind fun _ => .bind fun _ => .bind fun _ => .pure rfl)
  | .glsl .. => .nested fun _ _ _ failed => absurd failed throw_ne_ok

/-- What has been learnt is applied to the type of the outermost node. -/
theorem Expr.type_resolve {expr : Expr Span} {typed : Expr Typed} (ran : expr.infer limit state = (.ok typed, after))
    (subst : Substitution) : (typed.mapInfo (Typed.resolve subst)).type = subst.apply typed.type := by
  rw [Expr.type, info_mapInfo]
  exact Typed.type_resolve (infer_plain limit expr ran) subst

/-- Completing a plain annotation is reading it under what has been learnt. -/
theorem Typed.resolve_eq_read {typed : Typed} {subst : Substitution} (proper : subst.Proper)
    (plain : typed.scheme.binders = []) (flat : typed.type.Flat) :
    typed.resolve subst = typed.read (subst.valuation proper) := by
  rw [Typed.read, Substitution.read_valuation proper flat, Typed.resolve, Substitution.applyScheme, plain]
  rfl

namespace Knowledge

variable {known : Knowledge} {issued : Nat}

/-- The valuation that what has been learnt amounts to. -/
def Sound.valuation (sound : known.Sound issued) : Valuation := known.subst.valuation sound.respects.proper

theorem Sound.valuation_flat (sound : known.Sound issued) : sound.valuation.Flat :=
  Substitution.value_flat known.subst

/-- The completed expression is the inferred one, read under what has been learnt. -/
theorem Sound.resolve_expr (sound : known.Sound issued) {typed : Expr Typed}
    (fine : Knowledge.discipline.FineInfos known typed.infos) :
    typed.mapInfo (Typed.resolve known.subst) = typed.under sound.valuation :=
  typed.mapInfo_congr fun info member => Typed.resolve_eq_read _ (fine info member).1 (fine info member).2.flat

theorem Sound.resolve_patterns (sound : known.Sound issued) {typed : List (Pattern Typed)}
    (fine : Knowledge.discipline.FineInfos known (Pattern.infosOf typed)) :
    typed.map (Pattern.mapInfo (Typed.resolve known.subst)) = typed.map (Pattern.under sound.valuation) :=
  Pattern.mapInfos_congr typed fun info member => Typed.resolve_eq_read _ (fine info member).1 (fine info member).2.flat

/-- Nothing has been learnt yet in an environment without free variables. -/
theorem start (closed : state.env.All (Scheme.Closed state.supply.issued)) :
    Knowledge.discipline.Inv (⟨.upTo state.supply.issued, {}⟩ : Knowledge) { state with subst := {} } where
  holds := ⟨rfl, Substitution.respects_empty, Substitution.settled_empty.acyclic, Signature.issued_upTo _⟩
  env := closed.imp fun _ schemeClosed => schemeClosed.within

/-- A successful run leaves behind what has been learnt, and all of it holds under the valuation it amounts to. -/
theorem of_run {α : Type} {action : InferM α} {script : Script action} {world last : Knowledge} {mid : InferState}
    {ends : Knowledge → Scene → α → Prop} {value : α}
    (run : @Script.Sound Knowledge.discipline α action script world state ends last)
    (ran : action state = (.ok value, mid)) :
    ∃ sound : last.Sound mid.supply.issued, mid.subst = last.subst ∧ ends last mid.scene value ∧
      ∀ result : Scene → α → Prop, script.Under sound.valuation state.scene result → result mid.scene value := by
  obtain ⟨learnt, sound⟩ := run.inv.holds
  have ended := run.ends value (by rw [ran])
  have under := run.under value (by rw [ran])
  rw [ran] at learnt sound ended under
  exact ⟨sound, learnt, ended, under sound.valuation sound.models⟩

end Knowledge

/-- Without its types a tree is the same under every valuation. -/
theorem Expr.erase_under {valuation : Valuation} (typed : Expr Typed) :
    (typed.under valuation).mapInfo Typed.span = typed.mapInfo Typed.span := by
  rw [under, mapInfo_mapInfo]
  rfl

theorem Pattern.erase_under {valuation : Valuation} (typed : List (Pattern Typed)) :
    (typed.map (under valuation)).map (mapInfo Typed.span) = typed.map (mapInfo Typed.span) :=
  mapInfos_mapInfos ..

/-- Under a valuation all annotations are plain types. -/
theorem Expr.isMono_under {valuation : Valuation} (typed : Expr Typed) :
    ∀ info ∈ (typed.under valuation).infos, info.scheme.isMono = true := by
  rw [under, infos_mapInfo, List.forall_mem_map]
  exact fun _ _ => rfl

theorem Pattern.isMono_under {valuation : Valuation} (typed : List (Pattern Typed)) :
    ∀ info ∈ infosOf (typed.map (under valuation)), info.scheme.isMono = true := by
  have infos : infosOf (typed.map (under valuation)) = (infosOf typed).map (Typed.read valuation) := infosOf_mapInfo ..
  rw [infos, List.forall_mem_map]
  exact fun _ _ => rfl

/-- The completed expression keeps to the typing rules. -/
theorem Expr.inferClosed_wellTyped {expr : Expr Span} {result : Expr Typed}
    (closed : state.env.All (Scheme.Closed state.supply.issued))
    (success : expr.inferClosed limit state = (.ok result, after)) :
    result.mapInfo Typed.span = expr ∧ (∀ info ∈ result.infos, info.scheme.isMono = true) ∧
      result.WellTyped state.env.get? := by
  obtain ⟨typed, mid, ran, rfl, rfl⟩ := of_inferClosed success
  have start := Knowledge.start closed
  obtain ⟨last, run⟩ := Script.Safe.sound (expr.script limit)
    (script_walks limit expr fun _ _ _ _ _ fine => fine) start
  obtain ⟨sound, learnt, fine, under⟩ := Knowledge.of_run run ran
  obtain ⟨source, ok⟩ :=
    under (fun _ typed => typed.mapInfo Typed.span = expr ∧ (typed.under _).WellTyped state.env.get?)
    (script_settles limit expr (.of_closed closed sound.valuation_flat) fun _ _ fits => ⟨fits.source, fits.ok⟩)
  rw [learnt, sound.resolve_expr fine]
  exact ⟨(erase_under typed).trans source, isMono_under typed, ok⟩

namespace Declaration

def erase (declaration : Declaration Typed) : Declaration Span where
  name := declaration.name
  params := declaration.params.map (Pattern.mapInfo Typed.span)
  body := declaration.body.mapInfo Typed.span
  info := declaration.info.span

theorem generalize_nil (type : Ty) : generalize [] type = Scheme.closed type := by
  simp [generalize, Scheme.closed]

/-- The completed declaration keeps to the typing rules, and its scheme has no free variables. -/
theorem infer_wellTyped {declaration : Declaration Span} {typed : Declaration Typed}
    (closed : state.env.All (Scheme.Closed state.supply.issued))
    (success : declaration.infer limit state = (.ok typed, after)) :
    typed.erase = declaration ∧
      (∀ info ∈ Pattern.infosOf typed.params ++ typed.body.infos, info.scheme.isMono = true) ∧
      typed.WellTyped state.env.get? ∧ typed.info.scheme.Closed after.supply.issued ∧
      after.env = state.env.add typed.name typed.info.scheme := by
  obtain ⟨params, body, mid, ran, sameName, sameParams, sameBody, sameInfo, env, supply⟩ := of_infer success
  obtain ⟨first, _, _, selfFine, last, run⟩ := bodyScript_sound limit declaration (Knowledge.start closed)
  obtain ⟨sound, learnt, ⟨restored, grown, paramsFine, bodyFine⟩, under⟩ := Knowledge.of_run run ran
  -- The typing rules are read off the run under the valuation that the final substitution stands for.
  let result (_ : Scene) (result : List (Pattern Typed) × Expr Typed) : Prop :=
    let type := functionType (result.1.map (Pattern.under sound.valuation)) (result.2.under sound.valuation)
    Expr.FunctionFits sound.valuation declaration.params declaration.body
      (Context.addAll state.env.get? [(declaration.name, type)]) result.1 result.2 ∧
      state.self.read sound.valuation = type
  obtain ⟨fits, same⟩ := under result
    (bodyScript_under limit declaration (.of_closed closed sound.valuation_flat) fun _ _ _ fits same _ => ⟨fits, same⟩)
  have selfWithin : state.self.Within last.sig := Knowledge.discipline.fine_mono grown selfFine
  rw [learnt, sound.resolve_patterns paramsFine] at sameParams
  rw [learnt, sound.resolve_expr bodyFine] at sameBody
  have restored : mid.env = state.env := restored
  have resolved : last.subst.apply state.self = functionType typed.params typed.body := by
    rw [sameParams, sameBody, ← same]
    exact (Substitution.read_valuation sound.respects.proper selfWithin.flat).symm
  rw [learnt, restored, Environment.freeIds_eq_nil closed, generalize_nil] at sameInfo
  refine ⟨?_, ?_, ?_, ?_, ?_⟩
  · have spans : typed.info.span = declaration.info := by rw [sameInfo]
    rw [erase, sameName, sameParams, sameBody, spans, Pattern.erase_under, Expr.erase_under, fits.params, fits.body]
  · rw [sameParams, sameBody, List.forall_mem_append]
    exact ⟨Pattern.isMono_under params, Expr.isMono_under body⟩
  · refine ⟨?_, ?_, ?_, ?_⟩
    · rw [sameParams]
      exact fits.paramsOk
    · rw [sameParams]
      exact fits.distinct
    · rw [sameName, sameParams, sameBody]
      exact fits.bodyOk
    · rw [sameInfo, resolved]
  · rw [sameInfo, supply]
    exact .of_type (sound.respects.apply_within selfWithin) sound.below
  · rw [env, restored, sameName]

end Declaration

end RowInference
