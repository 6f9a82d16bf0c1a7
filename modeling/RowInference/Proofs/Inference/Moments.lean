import RowInference.Proofs.Inference.Completion

/-! # Every moment of an inference

Inference extends what it has learnt in place, without looking at what is there. This is right because of what holds at
each of its moments, in any environment whose variables have been issued and are used under one constraint each: what
has been learnt has no cycles, what an equation adds to it is apart from what was there, every variable that has ever
been in use resolves to a type for its constraint, and no variable is in use that the supply has not issued.
-/

namespace RowInference

/-! ## Variables in use -/

/-- The variable is free in the scheme of some name in scope. -/
def Environment.Uses (env : Environment) (v : TypeVar) : Prop :=
  ∃ scope ∈ env.scopes, ∃ (name : String) (scheme : Scheme), scope[name]? = some scheme ∧ v ∈ scheme.freeVars

/-- The variable is in use in a state: in its environment or in what has been learnt. -/
def InferState.Uses (state : InferState) (v : TypeVar) : Prop :=
  state.env.Uses v ∨ ∃ (id : VarId) (type : Ty), state.subst[id]? = some type ∧ v ∈ type.occurrences

def Moment.Uses (v : TypeVar) : Moment → Prop
  | .reached state => state.Uses v
  | .posed state expected actual => state.Uses v ∨ v ∈ expected.occurrences ++ actual.occurrences
  | .typed type => v ∈ type.occurrences

/-! ## Environments -/

/-- The schemes in scope make sense together: their rows are sorted and extend no record, no variable is used under two
constraints, and all generated variables have been issued. -/
structure Environment.Coherent (issued : Nat) (env : Environment) : Prop where
  rows : env.All fun scheme => scheme.body.Canonical ∧ scheme.body.Flat
  binders : env.All Scheme.Coherent
  free : ∀ ⦃v u : TypeVar⦄, env.Uses v → env.Uses u → v.id = u.id → v.constraint = u.constraint
  issued : env.All fun scheme => ∀ v ∈ scheme.binders ++ scheme.body.occurrences, v.Below issued

namespace Environment

variable {env : Environment} {issued : Nat}

open Classical in
/-- The constraints of the variables in use; the other issued ones have none. -/
noncomputable def signature (issued : Nat) (env : Environment) : Signature := fun id =>
  if used : ∃ v, env.Uses v ∧ v.id = id then some (Classical.choose used).constraint else Signature.upTo issued id

/-- A variable in use has its constraint in the signature. -/
theorem Coherent.signature_of_uses (coherent : env.Coherent issued) {v : TypeVar} (used : env.Uses v) :
    env.signature issued v.id = some v.constraint := by
  have known : ∃ u, env.Uses u ∧ u.id = v.id := ⟨v, used, rfl⟩
  obtain ⟨chosenUsed, sameId⟩ := Classical.choose_spec known
  rw [signature, dif_pos known, coherent.free chosenUsed used sameId]

theorem Coherent.signature_issued (coherent : env.Coherent issued) : (env.signature issued).Issued issued := by
  intro index known
  by_cases used : ∃ v, env.Uses v ∧ v.id = .generated index
  · obtain ⟨v, ⟨scope, inScopes, name, scheme, found, free⟩, isGenerated⟩ := used
    have inBody : v ∈ scheme.body.occurrences := List.mem_eraseDups.mp (List.mem_of_mem_filter free)
    exact coherent.issued scope inScopes found v (List.mem_append_right _ inBody) index isGenerated
  · rw [signature, dif_neg used] at known
    exact Signature.issued_upTo issued index known

/-- The schemes are within the constraints of the variables in use. -/
theorem Coherent.within (coherent : env.Coherent issued) : env.All (Scheme.Within (env.signature issued)) := by
  intro scope inScopes name scheme found
  obtain ⟨canonical, flat⟩ := coherent.rows scope inScopes found
  refine ⟨canonical, flat, coherent.binders scope inScopes found, fun v inBody isFree => ?_, ?_⟩
  · refine coherent.signature_of_uses
      ⟨scope, inScopes, name, scheme, found, List.mem_filter.mpr ⟨?_, by rw [isFree]; rfl⟩⟩
    exact List.mem_eraseDups.mpr inBody
  · intro v member index isGenerated
    by_cases used : ∃ u, env.Uses u ∧ u.id = v.id
    · rw [signature, dif_pos used]
      exact Option.some_ne_none _
    · rw [signature, dif_neg used, isGenerated, Signature.upTo,
        if_pos (coherent.issued scope inScopes found v member index isGenerated)]
      exact Option.some_ne_none _

end Environment

/-! ## Moments under growing signatures -/

/-- Everything makes sense at all moments while more and more variables come into play. What has been learnt may be
forgotten. -/
def Tracked : Signature → List Moment → Signature → Prop
  | sig, [], last => sig.Sub last
  | sig, moment :: rest, last => ∃ known : Knowledge, sig.Sub known.sig ∧ Knowledge.discipline.Ok known moment ∧
      Tracked known.sig rest last

namespace Tracked

variable {sig middle last : Signature} {moments others : List Moment}

theorem append (first : Tracked sig moments middle) (second : Tracked middle others last) :
    Tracked sig (moments ++ others) last := by
  induction moments generalizing sig with
  | nil =>
    cases others with
    | nil => exact first.trans second
    | cons moment rest =>
      obtain ⟨known, sub, ok, tracked⟩ := second
      exact ⟨known, first.trans sub, ok, tracked⟩
  | cons moment rest ih =>
    obtain ⟨known, sub, ok, tracked⟩ := first
    exact ⟨known, sub, ok, ih tracked⟩

/-- Moments that keep to the discipline of knowledge are tracked. -/
theorem of_passes {known later : Knowledge} (passes : Knowledge.discipline.Passes known moments later) :
    Tracked known.sig moments later.sig := by
  induction moments generalizing known with
  | nil => exact Knowledge.sub_of_le passes
  | cons moment rest ih =>
    obtain ⟨next, le, ok, passes⟩ := passes
    exact ⟨next, Knowledge.sub_of_le le, ok, ih passes⟩

theorem single {known : Knowledge} {state : InferState} (inv : Knowledge.discipline.Inv known state)
    (sub : sig.Sub known.sig) : Tracked sig [.reached state] known.sig := ⟨known, sub, inv, .refl _⟩

/-- A first step, and then whatever follows it if it succeeds. -/
theorem andThen {α β : Type} {action : InferM α} {next : α → InferM β} {first : Script action}
    {rest : (value : α) → Script (next value)} {state : InferState} (begun : Tracked sig (first.moments state) middle)
    (goesOn : ∀ value mid, action state = (.ok value, mid) → ∃ last, Tracked middle ((rest value).moments mid) last) :
    ∃ last, Tracked sig ((Script.andThen first rest).moments state) last := by
  rw [Script.moments]
  rcases ran : action state with ⟨_ | value, mid⟩
  · exact ⟨middle, by simpa using begun⟩
  · obtain ⟨last, tracked⟩ := goesOn value mid ran
    exact ⟨last, begun.append tracked⟩

/-- The variables of earlier moments are still known at a later one. -/
theorem split {before after : List Moment} {moment : Moment} (tracked : Tracked sig (before ++ moment :: after) last) :
    ∃ known : Knowledge, sig.Sub known.sig ∧ Knowledge.discipline.Ok known moment ∧
      ∀ earlier ∈ before, ∃ old : Knowledge, old.sig.Sub known.sig ∧ Knowledge.discipline.Ok old earlier := by
  induction before generalizing sig with
  | nil =>
    obtain ⟨known, sub, ok, _⟩ := tracked
    exact ⟨known, sub, ok, by simp⟩
  | cons first rest ih =>
    obtain ⟨old, sub, ok, tracked⟩ := tracked
    obtain ⟨known, sub', ok', others⟩ := ih tracked
    exact ⟨known, sub.trans sub', ok', List.forall_mem_cons.mpr ⟨⟨old, sub', ok⟩, others⟩⟩

end Tracked

namespace Knowledge

variable {known : Knowledge} {state : InferState}

/-- A variable in use in a fine state is known with its constraint. -/
theorem uses_known (inv : discipline.Inv known state) {v : TypeVar} (used : state.Uses v) :
    known.sig v.id = some v.constraint := by
  obtain ⟨⟨learnt, sound⟩, env⟩ := inv
  rcases used with ⟨scope, inScopes, name, scheme, found, free⟩ | ⟨id, type, bound, inType⟩
  · obtain ⟨inBody, isFree⟩ := List.mem_filter.mp free
    exact (env scope inScopes found).free v (List.mem_eraseDups.mp inBody) (by simpa using isFree)
  · rw [learnt] at bound
    exact (sound.respects.type bound).known v inType

/-- A variable in use at a moment is known there. -/
theorem moment_known {moment : Moment} (ok : discipline.Ok known moment) {v : TypeVar} (used : moment.Uses v) :
    known.sig v.id = some v.constraint := by
  cases moment with
  | reached state => exact uses_known ok used
  | posed state expected actual =>
    obtain ⟨inv, expectedWithin, actualWithin⟩ := ok
    rcases used with inState | inEquation
    · exact uses_known inv inState
    · exact (List.mem_append.mp inEquation).elim (expectedWithin.known v) (actualWithin.known v)
  | typed type => exact Ty.Within.known ok v used

/-- The same variables are in play, and nothing has been learnt about them. -/
def forgotten (known : Knowledge) : Knowledge := ⟨known.sig, {}⟩

/-- Completed types mention no bound variable. -/
theorem unbound_of_resolved {issued : Nat} (sound : known.Sound issued) {infos : List Typed}
    (fine : discipline.FineInfos known infos) :
    ∀ info ∈ infos.map (Typed.resolve known.subst), ∀ v ∈ info.type.occurrences, known.subst[v.id]? = none := by
  refine List.forall_mem_map.mpr fun info member v inType => ?_
  obtain ⟨plain, within⟩ := fine info member
  rw [Typed.type_resolve plain] at inType
  exact Substitution.unbound_of_mem_apply sound.acyclic inType

/-- Forgetting what has been learnt keeps everything fine. -/
theorem inv_forget (inv : discipline.Inv known state) :
    discipline.Inv known.forgotten { state with subst := {} } where
  holds := ⟨rfl, Substitution.respects_empty, Substitution.settled_empty.acyclic, inv.holds.2.below⟩
  env := inv.env

end Knowledge

/-! ## What holds at a moment -/

/-- What holds in a state in which some variables have been in use. -/
structure InferState.Orderly (used : TypeVar → Prop) (state : InferState) : Prop where
  acyclic : state.subst.Acyclic
  values : ∀ v, used v → (state.subst.apply (.var v)).Meets v.constraint
  issued : ∀ v, used v → v.Below state.supply.issued
  keys : ∀ index, state.subst[VarId.generated index]? ≠ none → index < state.supply.issued
  env : state.env.All fun scheme => ∀ v ∈ scheme.binders ++ scheme.body.occurrences, v.Below state.supply.issued

/-- What holds at a moment: the state is orderly, and what an equation adds to what has been learnt is apart from it. -/
def Moment.Orderly (used : TypeVar → Prop) : Moment → Prop
  | .reached state => state.Orderly used
  | .posed state expected actual => state.Orderly used ∧ ∀ found supply,
      unify (state.subst.apply expected) (state.subst.apply actual) state.supply = (.ok found, supply) →
        state.subst.Apart found
  | .typed _ => True

/-- All moments of a run are orderly, given the variables that have been in use by then. -/
def AllOrderly (moments : List Moment) : Prop := ∀ before moment after, moments = before ++ moment :: after →
  moment.Orderly fun v => ∃ earlier ∈ before ++ [moment], earlier.Uses v

/-- A state in which everything is fine is orderly. -/
theorem Knowledge.orderly {known : Knowledge} {state : InferState} (inv : discipline.Inv known state)
    {used : TypeVar → Prop} (usedKnown : ∀ v, used v → known.sig v.id = some v.constraint) : state.Orderly used := by
  obtain ⟨⟨learnt, sound⟩, env⟩ := inv
  have issued : ∀ {v : TypeVar}, known.sig v.id ≠ none → v.Below state.supply.issued := by
    intro v inPlay index isGenerated
    exact sound.below index (isGenerated ▸ inPlay)
  refine ⟨?_, fun v isUsed => ?_, fun v isUsed => issued ?_, fun index bound => ?_, ?_⟩
  · rw [learnt]
    exact sound.acyclic
  · rw [learnt]
    exact (sound.respects.value (usedKnown v isUsed)).2
  · rw [usedKnown v isUsed]
    exact Option.some_ne_none _
  · obtain ⟨type, isBound⟩ := Option.ne_none_iff_exists'.mp bound
    rw [learnt] at isBound
    exact sound.below index (sound.respects.key isBound)
  · refine env.imp fun scheme within v member index isGenerated => ?_
    exact issued (within.issued v member index isGenerated) index isGenerated

/-- All moments of a tracked run are orderly. -/
theorem Tracked.allOrderly {sig last : Signature} {moments : List Moment} (tracked : Tracked sig moments last) :
    AllOrderly moments := by
  rintro before moment after rfl
  obtain ⟨known, _, ok, earlierOk⟩ := tracked.split
  have usedKnown : ∀ v, (∃ earlier ∈ before ++ [moment], earlier.Uses v) → known.sig v.id = some v.constraint := by
    rintro v ⟨earlier, member, used⟩
    rcases List.mem_append.mp member with inBefore | isMoment
    · obtain ⟨old, sub, oldOk⟩ := earlierOk earlier inBefore
      exact sub (Knowledge.moment_known oldOk used)
    · obtain rfl := List.mem_singleton.mp isMoment
      exact Knowledge.moment_known ok used
  cases moment with
  | reached state => exact Knowledge.orderly ok usedKnown
  | posed state expected actual =>
    obtain ⟨inv, expectedWithin, actualWithin⟩ := ok
    refine ⟨Knowledge.orderly inv usedKnown, fun found supply success => ?_⟩
    obtain ⟨learnt, sound⟩ := inv.holds
    rw [learnt] at success ⊢
    exact sound.apart expectedWithin actualWithin success
  | typed type => trivial

/-! ## Expressions -/

variable {limit : Nat} {state after : InferState}

/-- Nothing has been learnt yet in a coherent environment. -/
theorem Environment.Coherent.start (coherent : state.env.Coherent state.supply.issued) :
    Knowledge.discipline.Inv (⟨state.env.signature state.supply.issued, {}⟩ : Knowledge)
      { state with subst := {} } where
  holds := ⟨rfl, Substitution.respects_empty, Substitution.settled_empty.acyclic, coherent.signature_issued⟩
  env := coherent.within

namespace Expr

/-- In a coherent environment the inference of an expression is sound. -/
theorem script_sound (limit : Nat) (coherent : state.env.Coherent state.supply.issued) (expr : Expr Span) :
    ∃ last : Knowledge, @Script.Sound Knowledge.discipline _ _ (expr.script limit)
      ⟨state.env.signature state.supply.issued, {}⟩ { state with subst := {} }
      (fun later _ typed => Knowledge.discipline.FineInfos later typed.infos) last :=
  Script.Safe.sound (expr.script limit) (script_walks limit expr fun _ _ _ _ _ fine => fine) coherent.start

/-- All moments in the inference of an expression that stands alone are tracked. -/
theorem tracked_closedScript (limit : Nat) (coherent : state.env.Coherent state.supply.issued) (expr : Expr Span) :
    ∃ last, Tracked (state.env.signature state.supply.issued) ((expr.closedScript limit).moments state) last := by
  obtain ⟨last, run⟩ := script_sound limit coherent expr
  have begun : Tracked (state.env.signature state.supply.issued) (Script.forget.moments state)
      (state.env.signature state.supply.issued) := .single coherent.start (.refl _)
  refine begun.andThen fun _ _ forgot => ?_
  cases forgot
  refine (Tracked.of_passes run.passes).andThen fun typed mid ran => ?_
  have inv := run.inv
  rw [ran] at inv
  exact ⟨last.forgotten.sig, .single (Knowledge.inv_forget inv) (.refl _)⟩

/-- No type of a completed expression mentions a variable that has been bound. -/
theorem unbound_of_inferClosed {expr : Expr Span} {result : Expr Typed}
    (coherent : state.env.Coherent state.supply.issued)
    (success : expr.inferClosed limit state = (.ok result, after)) :
    ∃ typed mid, expr.infer limit { state with subst := {} } = (.ok typed, mid) ∧
      result = typed.mapInfo (Typed.resolve mid.subst) ∧
      ∀ info ∈ result.infos, ∀ v ∈ info.type.occurrences, mid.subst[v.id]? = none := by
  obtain ⟨typed, mid, ran, rfl, rfl⟩ := of_inferClosed success
  obtain ⟨last, run⟩ := script_sound limit coherent expr
  obtain ⟨learnt, sound⟩ := run.inv.holds
  have fine := run.ends typed (by rw [ran])
  rw [ran] at learnt
  refine ⟨typed, mid, ran, rfl, ?_⟩
  rw [infos_mapInfo, learnt]
  exact Knowledge.unbound_of_resolved sound fine

end Expr

/-! ## Declarations -/

namespace Declaration

/-- The scheme of a declaration makes sense in its environment. -/
theorem generalize_within {sig : Signature} {type : Ty} (within : type.Within sig) (fixed : List VarId) :
    (generalize fixed type).Within sig where
  canonical := within.canonical
  flat := within.flat
  coherent binder member other otherMember sameId := by
    have known := within.known binder (List.mem_eraseDups.mp (List.mem_of_mem_filter member))
    rw [sameId, within.known other (List.mem_eraseDups.mp (List.mem_of_mem_filter otherMember))] at known
    exact (Option.some.inj known).symm
  free v inBody _ := within.known v inBody
  issued v member index _ := by
    have inBody : v ∈ type.occurrences :=
      (List.mem_append.mp member).elim (fun binder => List.mem_eraseDups.mp (List.mem_of_mem_filter binder)) id
    rw [within.known v inBody]
    exact Option.some_ne_none _

/-- All moments in the inference of a declaration are tracked. -/
theorem tracked_script (limit : Nat) (coherent : state.env.Coherent state.supply.issued)
    (declaration : Declaration Span) :
    ∃ last, Tracked (state.env.signature state.supply.issued) ((declaration.script limit).moments state) last := by
  obtain ⟨first, le, started, selfWithin, last, run⟩ := bodyScript_sound limit declaration coherent.start
  have forgotten : Tracked (state.env.signature state.supply.issued) (Script.forget.moments state)
      (state.env.signature state.supply.issued) := .single coherent.start (.refl _)
  refine forgotten.andThen fun _ _ forgot => ?_
  cases forgot
  have begun : Tracked (state.env.signature state.supply.issued)
      ((Script.fresh none).moments { state with subst := {} }) first.sig := .single started (Knowledge.sub_of_le le)
  refine begun.andThen fun _ _ issued => ?_
  cases issued
  refine (Tracked.of_passes run.passes).andThen fun result mid ran => ?_
  obtain ⟨learnt, sound⟩ := run.inv.holds
  have inv := run.inv
  obtain ⟨_, grown, _, _⟩ := run.ends result (by rw [ran])
  rw [ran] at inv learnt
  have within : (mid.subst.apply state.self).Within last.sig := by
    rw [learnt]
    exact sound.respects.apply_within (selfWithin.mono (Knowledge.sub_of_le grown))
  -- What has been learnt is taken out of the state; then the result is reported and declared.
  let scheme := generalize (mid.env.freeIds mid.subst) (mid.subst.apply state.self)
  let event : Event := .declared declaration.name scheme
  have emptied : Knowledge.discipline.Inv last.forgotten { mid with subst := {} } := Knowledge.inv_forget inv
  have noted : Knowledge.discipline.Inv last.forgotten { mid with subst := {}, events := event :: mid.events } :=
    emptied.step (le_refl _) emptied.holds rfl
  have added : Knowledge.discipline.Inv last.forgotten
      { mid with subst := {}, events := event :: mid.events, env := mid.env.add declaration.name scheme } :=
    ⟨noted.holds, noted.env.add declaration.name (generalize_within within _)⟩
  have taken : Tracked last.sig (Script.takeSubst.moments mid) last.forgotten.sig := .single emptied (.refl _)
  refine taken.andThen fun _ _ took => ?_
  cases took
  have looked : Tracked last.forgotten.sig (Script.getState.moments { mid with subst := {} }) last.forgotten.sig :=
    .refl _
  refine looked.andThen fun _ _ got => ?_
  cases got
  have reported : Tracked last.forgotten.sig ((Script.report event).moments { mid with subst := {} })
      last.forgotten.sig := .single noted (.refl _)
  refine reported.andThen fun _ _ ranReport => ?_
  cases ranReport
  have declared : Tracked last.forgotten.sig ((Script.declare declaration.name scheme).moments
      { mid with subst := {}, events := event :: mid.events }) last.forgotten.sig := .single added (.refl _)
  exact declared.andThen fun _ _ _ => ⟨_, .refl _⟩

/-- No type of a completed declaration mentions a variable that has been bound. -/
theorem unbound_of_infer {declaration : Declaration Span} {typed : Declaration Typed}
    (coherent : state.env.Coherent state.supply.issued)
    (success : declaration.infer limit state = (.ok typed, after)) :
    ∃ params body mid, inferBody limit state.self declaration state.started = (.ok (params, body), mid) ∧
      typed.params = params.map (Pattern.mapInfo (Typed.resolve mid.subst)) ∧
      typed.body = body.mapInfo (Typed.resolve mid.subst) ∧
      ∀ info ∈ typed.infos, ∀ v ∈ info.type.occurrences, mid.subst[v.id]? = none := by
  obtain ⟨params, body, mid, ran, _, sameParams, sameBody, sameInfo, _, _⟩ := of_infer success
  obtain ⟨first, _, _, selfWithin, last, run⟩ := bodyScript_sound limit declaration coherent.start
  obtain ⟨learnt, sound⟩ := run.inv.holds
  obtain ⟨_, grown, paramsFine, bodyFine⟩ := run.ends _ (by rw [ran])
  rw [ran] at learnt
  refine ⟨params, body, mid, ran, sameParams, sameBody, fun info member => ?_⟩
  have paramInfos : Pattern.infosOf typed.params = (Pattern.infosOf params).map (Typed.resolve mid.subst) := by
    rw [sameParams]
    exact Pattern.infosOf_mapInfo ..
  rw [infos, paramInfos, sameBody, Expr.infos_mapInfo, sameInfo, learnt] at member
  rw [learnt]
  rcases List.mem_append.mp member with inParams | inRest
  · exact Knowledge.unbound_of_resolved sound paramsFine info inParams
  · rcases List.mem_append.mp inRest with inBody | isInfo
    · exact Knowledge.unbound_of_resolved sound bodyFine info inBody
    · rw [List.mem_singleton.mp isInfo]
      intro v inType
      exact Substitution.unbound_of_mem_apply sound.acyclic inType

end Declaration

/-! ## All inferences -/

/-- In a coherent environment, every moment of the inference of an expression or of a declaration is orderly, also if it
fails. No type in a completed tree mentions a variable that was bound in the end. -/
theorem InferState.inference_orderly (limit : Nat) (state : InferState)
    (coherent : state.env.Coherent state.supply.issued) :
    (∀ expr : Expr Span, AllOrderly ((expr.closedScript limit).moments state) ∧
      ∀ result after, expr.inferClosed limit state = (.ok result, after) →
        ∃ typed mid, expr.infer limit { state with subst := {} } = (.ok typed, mid) ∧
          result = typed.mapInfo (Typed.resolve mid.subst) ∧
          ∀ info ∈ result.infos, ∀ v ∈ info.type.occurrences, mid.subst[v.id]? = none) ∧
    (∀ declaration : Declaration Span, AllOrderly ((declaration.script limit).moments state) ∧
      ∀ typed after, declaration.infer limit state = (.ok typed, after) →
        ∃ params body mid,
          Declaration.inferBody limit state.self declaration state.started = (.ok (params, body), mid) ∧
          typed.params = params.map (Pattern.mapInfo (Typed.resolve mid.subst)) ∧
          typed.body = body.mapInfo (Typed.resolve mid.subst) ∧
          ∀ info ∈ typed.infos, ∀ v ∈ info.type.occurrences, mid.subst[v.id]? = none) := by
  refine ⟨fun expr => ⟨?_, fun _ _ success => Expr.unbound_of_inferClosed coherent success⟩,
    fun declaration => ⟨?_, fun _ _ success => Declaration.unbound_of_infer coherent success⟩⟩
  · obtain ⟨last, tracked⟩ := Expr.tracked_closedScript limit coherent expr
    exact tracked.allOrderly
  · obtain ⟨last, tracked⟩ := Declaration.tracked_script limit coherent declaration
    exact tracked.allOrderly

/-- One name in scope, for a record of an unknown type with one known field. -/
def InferState.openRecord : InferState where
  env := ({} : Environment).add "r"
    (Scheme.mono (.extension (.var (.generated 0)) (.field "x" (.var (.generated 1)) .empty)))
  supply := ⟨2⟩

theorem InferState.inference_orderly_openRecord : openRecord.env.Coherent 2 ∧
    AllOrderly (((Expr.access {} (.var {} "r") "y").closedScript 4).moments openRecord) := by
  have all : ∀ holds : Scheme → Prop, holds (Scheme.mono (.extension (.var (.generated 0))
      (.field "x" (.var (.generated 1)) .empty))) → openRecord.env.All holds := by
    intro holds here
    refine Environment.All.add (fun scope member name scheme found => ?_) "r" here
    rw [List.mem_singleton.mp member] at found
    simp at found
  have uses : ∀ {v : TypeVar}, openRecord.env.Uses v → v = .generated 0 ∨ v = .generated 1 := by
    rintro v ⟨scope, inScopes, name, scheme, found, free⟩
    have shown := all (fun scheme => ∀ v ∈ scheme.freeVars, v = .generated 0 ∨ v = .generated 1) (by decide)
    exact shown scope inScopes found v free
  have coherent : openRecord.env.Coherent 2 := by
    refine ⟨all _ ?_, all _ (by simp [Scheme.Coherent, Scheme.mono]), fun v u vUsed uUsed _ => ?_, all _ ?_⟩
    · simp [Scheme.mono, Ty.Canonical, Row.Canonical, Ty.Flat, Row.Flat, Ty.isRecord, Row.toList]
    · rcases uses vUsed with rfl | rfl <;> rcases uses uUsed with rfl | rfl <;> rfl
    · simp [Scheme.mono, Ty.occurrences, Row.occurrences, TypeVar.Below, TypeVar.generated]
  exact ⟨coherent, ((inference_orderly 4 openRecord coherent).1 _).1⟩

end RowInference
