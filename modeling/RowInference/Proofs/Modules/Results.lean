import RowInference.Proofs.Modules.Soundness

/-! # What a success returns

A success returns the modules it was given, under the same keys in the same order, and all that it adds is types:
without them the results are the modules again. The scheme of a declaration quantifies the variables of its type, each
of them once, in the order in which they appear; the types on the nodes below it quantify nothing.
-/

namespace RowInference

/-! ## All declarations of a result -/

namespace Declaration.Law

variable {law : Declaration.Law}

/-- Each declaration of a good list is good in some environment. -/
theorem GoodAll.exists_good {env : Environment} {declarations : List (Declaration Span)}
    {typed : List (Declaration Typed)} (good : law.GoodAll env declarations typed) :
    ∀ result ∈ typed, ∃ env declaration, law.Good env declaration result := by
  induction typed generalizing env declarations with
  | nil => simp
  | cons first rest ih =>
    cases declarations with
    | nil => exact good.elim
    | cons declaration declarations =>
      obtain ⟨here, others⟩ := good
      exact List.forall_mem_cons.mpr ⟨⟨env, declaration, here⟩, ih others⟩

end Declaration.Law

namespace ModuleMap

variable {ι : Type}

theorem mem_keys_of_mem {modules : ModuleMap ι} {entry : String × Module ι} (member : entry ∈ modules) :
    entry.1 ∈ modules.keys := List.mem_map_of_mem member

/-- The keys and the modules under them are all there is to a map. -/
theorem ext_of_nodup {modules others : ModuleMap ι} (nodup : modules.keys.Nodup) (sameKeys : others.keys = modules.keys)
    (same : ∀ key ∈ modules.keys, others.get? key = modules.get? key) : others = modules := by
  induction modules generalizing others with
  | nil => exact List.map_eq_nil_iff.mp sameKeys
  | cons entry rest ih =>
    obtain ⟨key, module⟩ := entry
    obtain ⟨new, nodupRest⟩ := List.nodup_cons.mp nodup
    obtain ⟨⟨otherKey, other⟩, others, rfl⟩ := List.exists_cons_of_ne_nil
      (show others ≠ [] by rintro rfl; cases sameKeys)
    obtain ⟨rfl, sameRest⟩ := List.cons.inj sameKeys
    obtain ⟨here, there⟩ := List.forall_mem_cons.mp same
    rw [get?_cons, get?_cons, if_pos rfl, if_pos rfl] at here
    obtain rfl := Option.some.inj here
    refine congrArg _ (ih nodupRest sameRest fun key member => ?_)
    have different : key ≠ otherKey := fun isKey => new (isKey ▸ member)
    have found := there key member
    rwa [get?_cons, get?_cons, if_neg different, if_neg different] at found

theorem keys_map {κ : Type} (change : Module ι → Module κ) (modules : ModuleMap ι) :
    ModuleMap.keys (modules.map fun entry => (entry.1, change entry.2)) = modules.keys := by
  rw [keys, keys, List.map_map]
  rfl

theorem get?_map {κ : Type} (change : Module ι → Module κ) (modules : ModuleMap ι) (key : String) :
    ModuleMap.get? (modules.map fun entry => (entry.1, change entry.2)) key = (modules.get? key).map change := by
  induction modules with
  | nil => rfl
  | cons entry rest ih =>
    rw [List.map_cons, get?_cons, ih, get?_cons]
    split <;> rfl

def erase (modules : ModuleMap Typed) : ModuleMap Span := modules.map fun entry => (entry.1, entry.2.erase)

end ModuleMap

namespace Checker

variable {checker after : Checker} {modules : ModuleMap Span} {result : ModuleMap Typed}

/-- What a success returns is under the keys it was given, and each module there is settled. -/
theorem settled_of_checkModules (law : Declaration.Law) (reachable : checker.Reachable)
    (success : checkModules modules checker = (.ok result, after)) :
    result.keys = modules.keys ∧ ∀ key ∈ modules.keys, Settled law modules checker.limit result key :=
  (checkModules_run modules (reachable.importable law)).2 result (by rw [success])

/-- A result holds one module under each key. -/
theorem get?_of_mem_result (success : checkModules modules checker = (.ok result, after))
    {entry : String × Module Typed} (member : entry ∈ result) : result.get? entry.1 = some entry.2 := by
  obtain ⟨_, _, _, rfl⟩ := of_checkModules success
  obtain ⟨key, inKeys, found⟩ := List.mem_filterMap.mp member
  obtain ⟨typed, isTyped, rfl⟩ := Option.map_eq_some_iff.mp found
  rw [ModuleMap.get?_filterMap, if_pos inKeys, isTyped]

/-- What is known about declarations holds of all that a success returns. -/
theorem good_of_checkModules (law : Declaration.Law) (reachable : checker.Reachable)
    (success : checkModules modules checker = (.ok result, after)) :
    ∀ entry ∈ result, ∀ typed ∈ entry.2.declarations, ∃ env declaration, law.Good env declaration typed := by
  intro entry member
  obtain ⟨sameKeys, settled⟩ := settled_of_checkModules law reachable success
  have inKeys : entry.1 ∈ modules.keys := sameKeys ▸ ModuleMap.mem_keys_of_mem member
  obtain ⟨_, typed, _, _, found, _, good⟩ := settled entry.1 inKeys
  obtain rfl := Option.some.inj ((get?_of_mem_result success member).symm.trans found)
  exact good.declarations.exists_good

/-! ## Only types are added -/

/-- Without its types the module under a key is the one that was given. -/
theorem erase_get?_of_checkModules (reachable : checker.Reachable)
    (success : checkModules modules checker = (.ok result, after)) (key : String) :
    (result.get? key).map Module.erase = modules.get? key := by
  obtain ⟨sameKeys, settled⟩ := settled_of_checkModules Declaration.soundness reachable success
  by_cases member : key ∈ modules.keys
  · obtain ⟨module, typed, env, found, isResult, _, good⟩ := settled key member
    rw [found, isResult, Option.map_some, (Module.sound_of_goodModule good).source]
  · have missing : modules.get? key = none := by
      by_contra present
      obtain ⟨module, found⟩ := Option.ne_none_iff_exists'.mp present
      exact member (ModuleMap.mem_keys_of_get? found)
    have absent : result.get? key = none := by
      by_contra present
      obtain ⟨typed, found⟩ := Option.ne_none_iff_exists'.mp present
      exact member (sameKeys ▸ ModuleMap.mem_keys_of_get? found)
    rw [missing, absent, Option.map_none]

/-- Inference only adds types. The modules that a call returns stand under the keys it was given, in the same order, and
without their types they are the modules it was given; an expression without its types is the one it was given. -/
theorem results_erase (reachable : checker.Reachable) :
    (∀ modules result after, checkModules modules checker = (.ok result, after) →
      result.keys = modules.keys ∧ (∀ key, (result.get? key).map Module.erase = modules.get? key) ∧
        (modules.keys.Nodup → result.erase = modules)) ∧
    (∀ expr result after, checkExpr expr checker = (.ok result, after) → result.mapInfo Typed.span = expr) := by
  constructor
  · intro modules result after success
    have sameKeys := (settled_of_checkModules Declaration.soundness reachable success).1
    have same := erase_get?_of_checkModules reachable success
    refine ⟨sameKeys, same, fun nodup => ModuleMap.ext_of_nodup nodup ?_ fun key _ => ?_⟩
    · rw [ModuleMap.erase, ModuleMap.keys_map, sameKeys]
    · rw [ModuleMap.erase, ModuleMap.get?_map, same]
  · intro expr result after success
    obtain ⟨mid, ran⟩ := of_checkExpr success
    have closed : Prelude.environment.All (Scheme.Closed checker.supply.issued) := Declaration.soundness.prelude _
    exact (Expr.inferClosed_wellTyped (by exact closed) ran).1

theorem results_erase_importing : ∃ result after, checkModules importing { limit := 4 } = (.ok result, after) ∧
    result.keys = ["Use", "Rows"] ∧ result.erase = importing := by
  obtain ⟨result, after, run⟩ := exists_eq_ok importing_isOk
  obtain ⟨keys, _, erased⟩ := (results_erase (.new 4)).1 importing result after run
  exact ⟨result, after, run, keys, erased (by decide)⟩

end Checker

/-! ## Published schemes -/

/-- If one element comes before another in a part of a list, it does so in the whole. -/
theorem idxOf_lt_of_filter {α : Type} [DecidableEq α] {keep : α → Bool} {elements : List α} {first second : α}
    (less : (elements.filter keep).idxOf first < (elements.filter keep).idxOf second) (keepFirst : keep first = true)
    (keepSecond : keep second = true) : elements.idxOf first < elements.idxOf second := by
  induction elements with
  | nil => simp at less
  | cons element rest ih =>
    simp only [List.idxOf_cons]
    cases kept : keep element with
    | false =>
      have notFirst : element ≠ first := by rintro rfl; simp [kept] at keepFirst
      have notSecond : element ≠ second := by rintro rfl; simp [kept] at keepSecond
      rw [List.filter_cons_of_neg (by simp [kept])] at less
      simpa [beq_eq_false_iff_ne.mpr notFirst, beq_eq_false_iff_ne.mpr notSecond] using ih less
    | true =>
      rw [List.filter_cons_of_pos kept, List.idxOf_cons, List.idxOf_cons] at less
      by_cases isSecond : element = second
      · simp [isSecond] at less
      · by_cases isFirst : element = first
        · simp [isFirst, beq_eq_false_iff_ne.mpr (isFirst ▸ isSecond)]
        · simp only [beq_eq_false_iff_ne.mpr isFirst, beq_eq_false_iff_ne.mpr isSecond, cond_false] at less ⊢
          have := ih (by omega)
          omega

/-- Of several copies of an element the first one stays, in its place. -/
theorem pairwise_idxOf_eraseDups {α : Type} [DecidableEq α] (elements : List α) :
    elements.eraseDups.Pairwise fun first second => elements.idxOf first < elements.idxOf second := by
  match elements with
  | [] => exact .nil
  | element :: rest =>
    rw [List.eraseDups_cons]
    refine List.pairwise_cons.mpr ⟨fun other member => ?_, ?_⟩
    · have different : element ≠ other := by
        rintro rfl
        simp [List.mem_eraseDups] at member
      simp [List.idxOf_cons, beq_eq_false_iff_ne.mpr different]
    · refine (pairwise_idxOf_eraseDups (rest.filter fun other => !other == element)).imp_of_mem ?_
      intro first second inFirst inSecond less
      have keepFirst := (List.mem_filter.mp (List.mem_eraseDups.mp inFirst)).2
      have keepSecond := (List.mem_filter.mp (List.mem_eraseDups.mp inSecond)).2
      have firstOther : element ≠ first := by rintro rfl; simp at keepFirst
      have secondOther : element ≠ second := by rintro rfl; simp at keepSecond
      simpa [List.idxOf_cons, beq_eq_false_iff_ne.mpr firstOther, beq_eq_false_iff_ne.mpr secondOther] using
        idxOf_lt_of_filter less keepFirst keepSecond
termination_by elements.length
decreasing_by exact Nat.lt_succ_of_le (List.length_filter_le _ _)

/-- The scheme quantifies the variables of its body, each once, in the order in which they first appear. -/
structure Scheme.Complete (scheme : Scheme) : Prop where
  closed : scheme = Scheme.closed scheme.body
  free : scheme.freeVars = []
  binders : ∀ v, v ∈ scheme.binders ↔ v ∈ scheme.body.occurrences
  distinct : (scheme.binders.map TypeVar.id).Nodup
  order : scheme.binders.Pairwise fun first second =>
    scheme.body.occurrences.idxOf first < scheme.body.occurrences.idxOf second

/-- Quantifying all variables of a type, provided that none is used under two constraints. -/
theorem Scheme.complete_closed {type : Ty} (coherent : (Scheme.closed type).Coherent) :
    (Scheme.closed type).Complete where
  closed := rfl
  free := by
    rw [freeVars, List.filter_eq_nil_iff]
    intro v inBody
    simp [closed_binds type v (List.mem_eraseDups.mp inBody)]
  binders _ := List.mem_eraseDups
  distinct := by
    have ordered := pairwise_idxOf_eraseDups type.occurrences
    refine List.pairwise_map.mpr (ordered.imp_of_mem fun {first second} inFirst inSecond less sameId => ?_)
    have same : first = second := by
      have sameConstraint := coherent first inFirst second inSecond sameId
      cases first
      cases second
      simp_all
    rw [same] at less
    exact Nat.lt_irrefl _ less
  order := pairwise_idxOf_eraseDups type.occurrences

/-- The scheme of a declaration is complete, and below the declaration nothing is quantified. -/
structure Declaration.Published (declaration : Declaration Typed) : Prop where
  scheme : declaration.info.scheme.Complete
  nodes : ∀ info ∈ Pattern.infosOf declaration.params ++ declaration.body.infos, info.scheme.binders = []

/-- Declarations among schemes without free variables are published with such a scheme. -/
def Declaration.publication : Declaration.Law where
  Global := Scheme.Closed
  Good _ _ typed := typed.Published
  mono le closed := closed.mono_le le
  prelude := Declaration.soundness.prelude
  infer closed success := by
    obtain ⟨_, plain, ok, schemeClosed, env⟩ := Declaration.infer_wellTyped closed success
    refine ⟨⟨?_, fun info member => List.isEmpty_iff.mp (plain info member)⟩, schemeClosed, env⟩
    have coherent := schemeClosed.coherent
    rw [ok.scheme] at coherent ⊢
    exact Scheme.complete_closed coherent

namespace Checker

variable {checker : Checker}

/-- Every scheme that a success publishes quantifies exactly the variables of its body, each once and in order of their
first appearance, and no other node of the result has a scheme that quantifies anything. -/
theorem results_published (reachable : checker.Reachable) (modules : ModuleMap Span) (result : ModuleMap Typed)
    (after : Checker) (success : checkModules modules checker = (.ok result, after)) :
    ∀ entry ∈ result, ∀ declaration ∈ entry.2.declarations, declaration.Published := by
  intro entry member declaration inModule
  obtain ⟨_, _, published⟩ :=
    good_of_checkModules Declaration.publication reachable success entry member declaration inModule
  exact published

theorem results_published_importing : ∃ result after, checkModules importing { limit := 4 } = (.ok result, after) ∧
    ∀ entry ∈ result, ∀ declaration ∈ entry.2.declarations, declaration.Published := by
  obtain ⟨result, after, run⟩ := exists_eq_ok importing_isOk
  exact ⟨result, after, run, results_published (.new 4) importing result after run⟩

end Checker

end RowInference
