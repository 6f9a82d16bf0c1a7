import RowInference.Proofs.Modules.Checking

/-! # The inferences of a call

A call with modules infers their declarations one after the other. Here they are listed, each with the state in which
its inference starts: those of the first module in the order, in the environment of its imports, then those of the
next module, and so on until one of them fails. Every declaration that a success returns is the result of one of them.
What is in scope where an inference starts belongs to the prelude or has been inferred before.
-/

namespace RowInference

/-- The inference of a declaration from a state. -/
structure Inference where
  state : InferState
  declaration : Declaration Span

namespace Inference

def Returns (inference : Inference) (limit : Nat) (typed : Declaration Typed) : Prop :=
  (inference.declaration.infer limit inference.state).1 = .ok typed

/-- All schemes in scope have the property that a law asks for. -/
def Lawful (inference : Inference) (law : Declaration.Law) : Prop :=
  inference.state.env.All (law.Global inference.state.supply.issued)

end Inference

namespace Declaration

/-- The inferences of declarations in order, each from the state that the one before it leaves behind. -/
def inferences (limit : Nat) : List (Declaration Span) → InferState → List Inference
  | [], _ => []
  | declaration :: rest, state =>
    ⟨state, declaration⟩ :: match declaration.infer limit state with
      | (.ok _, mid) => inferences limit rest mid
      | (.error _, _) => []

variable {limit : Nat}

theorem inferences_returns {declarations : List (Declaration Span)} {typed : List (Declaration Typed)}
    {state after : InferState} (success : inferAll limit declarations state = (.ok typed, after)) :
    ∀ result ∈ typed, ∃ inference ∈ inferences limit declarations state, inference.Returns limit result := by
  induction declarations generalizing state typed with
  | nil =>
    obtain ⟨rfl, rfl⟩ := pure_eq_ok.mp success
    simp
  | cons declaration rest ih =>
    obtain ⟨first, mid, ran, success⟩ := bind_eq_ok.mp success
    obtain ⟨others, last, ranRest, success⟩ := bind_eq_ok.mp success
    obtain ⟨rfl, rfl⟩ := pure_eq_ok.mp success
    rw [inferences, ran]
    refine List.forall_mem_cons.mpr ⟨⟨_, List.mem_cons_self .., by rw [Inference.Returns, ran]⟩, ?_⟩
    intro result member
    obtain ⟨inference, inRest, returns⟩ := ih ranRest result member
    exact ⟨inference, List.mem_cons_of_mem _ inRest, returns⟩

/-- A declaration joins the scope of those after it, with a scheme that the law speaks of. -/
theorem inferences_lawful {law : Declaration.Law} (declarations : List (Declaration Span)) {state : InferState}
    (global : state.env.All (law.Global state.supply.issued)) :
    ∀ inference ∈ inferences limit declarations state, inference.Lawful law := by
  induction declarations generalizing state with
  | nil => simp [inferences]
  | cons declaration rest ih =>
    refine List.forall_mem_cons.mpr ⟨global, ?_⟩
    have le := (declaration.script limit).issued_le state
    rcases ran : declaration.infer limit state with ⟨_ | typed, mid⟩
    · simp
    · rw [ran] at le
      obtain ⟨_, new, env⟩ := law.infer global ran
      refine ih ?_
      rw [env]
      exact (global.imp fun _ => law.mono le).add _ new

end Declaration

namespace Checker

/-- The inferences in a module. There are none if it declares a name twice or imports what has not been inferred. -/
def moduleInferences (key : String) (module : Module Span) (checker : Checker) : List Inference :=
  match module.checkUnique, importAll checker.checked key Prelude.environment module.imports with
  | .ok _, .ok env =>
    Declaration.inferences checker.limit module.declarations ((checker.checking key).start env)
  | _, _ => []

/-- The inferences in modules that are taken in order, until one of them fails. -/
def orderInferences (modules : ModuleMap Span) : List String → Checker → List Inference
  | [], _ => []
  | key :: rest, checker =>
    match modules.get? key with
    | none => orderInferences modules rest checker
    | some module =>
      moduleInferences key module checker ++ match checkModule key module checker with
        | (.ok typed, mid) => orderInferences modules rest { mid with checked := mid.checked.insert key typed }
        | (.error _, _) => []

def inferences (checker : Checker) (modules : ModuleMap Span) : List Inference :=
  match modules.dependencyOrder with
  | .ok order => orderInferences modules order (checker.ordering order)
  | .error _ => []

variable {checker after : Checker} {key : String} {module : Module Span} {modules : ModuleMap Span}

/-! ## Results -/

/-- Every declaration of an inferred module is the result of an inference in the module. -/
theorem moduleInferences_returns {typed : Module Typed}
    (success : checkModule key module checker = (.ok typed, after)) :
    ∀ result ∈ typed.declarations, ∃ inference ∈ moduleInferences key module checker,
      inference.Returns checker.limit result := by
  obtain ⟨_, _, _, inferred⟩ := checkModule_run key module checker
  rw [success] at inferred
  obtain ⟨_, _, unique, env, mid, imported, ran, _⟩ := inferred typed rfl
  rw [moduleInferences, unique, imported]
  exact Declaration.inferences_returns ran

/-- A module that is there after a success has been inferred in it, or it was there before and is not in the order. -/
theorem orderInferences_returns {order : List String} (present : modules.contains key = true)
    (success : checkInOrder modules order checker = (.ok (), after)) {typed : Module Typed}
    (found : after.checked.get? key = some typed) :
    key ∉ order ∧ checker.checked.get? key = some typed ∨
      ∀ result ∈ typed.declarations, ∃ inference ∈ orderInferences modules order checker,
        inference.Returns checker.limit result := by
  induction order generalizing checker with
  | nil =>
    obtain ⟨_, rfl⟩ := pure_eq_ok.mp success
    exact .inl ⟨List.not_mem_nil, found⟩
  | cons first rest ih =>
    cases isModule : modules.get? first with
    | none =>
      rw [checkInOrder, isModule] at success
      rw [orderInferences, isModule]
      have different : key ≠ first := by
        rintro rfl
        simp [ModuleMap.contains, isModule] at present
      rcases ih success with ⟨absent, before⟩ | returns
      · exact .inl ⟨List.not_mem_cons_of_ne_of_not_mem different absent, before⟩
      · exact .inr returns
    | some module =>
      rw [checkInOrder_cons_run rest checker isModule] at success
      rw [orderInferences, isModule]
      obtain ⟨same, sameLimit, _, _⟩ := checkModule_run first module checker
      rcases ran : checkModule first module checker with ⟨_ | result, mid⟩
      · rw [ran] at success
        cases success
      · rw [ran] at success same sameLimit
        have limit : mid.limit = checker.limit := sameLimit
        rcases ih success with ⟨absent, before⟩ | returns
        -- If no later inference has replaced it, it is the result of this one or was there before.
        · rw [ModuleMap.get?_insert] at before
          split at before
          · cases before
            refine .inr fun declaration member => ?_
            obtain ⟨inference, inModule, returns⟩ := moduleInferences_returns ran declaration member
            exact ⟨inference, List.mem_append_left _ inModule, returns⟩
          · next different =>
            rw [same] at before
            exact .inl ⟨List.not_mem_cons_of_ne_of_not_mem different absent, before⟩
        · refine .inr fun declaration member => ?_
          obtain ⟨inference, inRest, returns⟩ := returns declaration member
          refine ⟨inference, List.mem_append_right _ ?_, limit ▸ returns⟩
          rw [ran]
          exact inRest

/-- Every declaration that a success returns is the result of one of its inferences. -/
theorem inferences_returns {result : ModuleMap Typed} (success : checkModules modules checker = (.ok result, after)) :
    ∀ entry ∈ result, ∀ declaration ∈ entry.2.declarations,
      ∃ inference ∈ checker.inferences modules, inference.Returns checker.limit declaration := by
  obtain ⟨order, isOrder, ran, rfl⟩ := of_checkModules success
  obtain ⟨ordered, complete⟩ := ModuleMap.dependencyOrder_ordered isOrder
  intro entry member
  obtain ⟨key, inKeys, isEntry⟩ := List.mem_filterMap.mp member
  obtain ⟨typed, found, rfl⟩ := Option.map_eq_some_iff.mp isEntry
  have inOrder := complete key inKeys
  rw [inferences, isOrder]
  rcases orderInferences_returns (ordered.present key inOrder) ran found with ⟨absent, _⟩ | returns
  · exact absurd inOrder absent
  · exact returns

/-! ## Scopes -/

variable {law : Declaration.Law}

theorem moduleInferences_lawful (importable : law.Importable checker.supply.issued checker.checked) :
    ∀ inference ∈ moduleInferences key module checker, inference.Lawful law := by
  rw [moduleInferences]
  split
  · next env _ imported =>
    exact Declaration.inferences_lawful _
      (Declaration.Law.global_of_importAll importable (law.prelude _) imported)
  · simp

theorem orderInferences_lawful (order : List String)
    (importable : law.Importable checker.supply.issued checker.checked) :
    ∀ inference ∈ orderInferences modules order checker, inference.Lawful law := by
  induction order generalizing checker with
  | nil => simp [orderInferences]
  | cons first rest ih =>
    rw [orderInferences]
    split
    · exact ih importable
    · next module _ =>
      refine List.forall_mem_append.mpr ⟨moduleInferences_lawful importable, ?_⟩
      rcases ran : checkModule first module checker with ⟨_ | typed, mid⟩
      · simp
      · exact ih (importable_of_checkModule importable ran)

/-- In every inference of a call the schemes in scope have the properties that results have. -/
theorem inferences_lawful (law : Declaration.Law) (reachable : checker.Reachable) (modules : ModuleMap Span) :
    ∀ inference ∈ checker.inferences modules, inference.Lawful law := by
  rw [inferences]
  split
  · next order _ => exact orderInferences_lawful order (reachable.importable law)
  · simp

end Checker

/-! ## Supplies -/

/-- The count of a supply in a word of 32 bits. -/
def Supply.word (supply : Supply) : UInt32 := .ofNat supply.issued

/-- A word that goes up by one with every variable numbers the variables in the same way, as long as the count is below
the size of a word. -/
theorem Supply.word_fresh {supply : Supply} (constraint : Option Constraint)
    (fits : (supply.fresh constraint).2.issued < UInt32.size) :
    (supply.fresh constraint).1.id = .generated supply.word.toNat ∧
      (supply.fresh constraint).2.word = supply.word + 1 ∧ supply.word.toNat + 1 < UInt32.size := by
  have fits : supply.issued + 1 < UInt32.size := fits
  have same : supply.word.toNat = supply.issued := UInt32.toNat_ofNat_of_lt' (Nat.lt_of_succ_lt fits)
  rw [same]
  exact ⟨rfl, UInt32.ofNat_add .., fits⟩

/-- How many variables have been issued when the inference is over. -/
def Inference.issued (inference : Inference) (limit : Nat) : Nat :=
  (inference.declaration.infer limit inference.state).2.supply.issued

/-- No inference in a list of declarations issues more variables than all of them. -/
theorem Declaration.inferences_issued_le {limit : Nat} (declarations : List (Declaration Span)) (state : InferState) :
    ∀ inference ∈ inferences limit declarations state,
      inference.issued limit ≤ (inferAll limit declarations state).2.supply.issued := by
  induction declarations generalizing state with
  | nil => simp [inferences]
  | cons declaration rest ih =>
    rw [inferences, inferAll, bind_run]
    rcases ran : declaration.infer limit state with ⟨_ | typed, mid⟩
    · simp [Inference.issued, ran]
    · have sameIssued : ((inferAll limit rest >>= fun others => pure (typed :: others)) mid).2.supply
          = (inferAll limit rest mid).2.supply := by
        rw [bind_run]
        rcases inferAll limit rest mid with ⟨_ | _, _⟩ <;> rfl
      dsimp only
      rw [sameIssued]
      refine List.forall_mem_cons.mpr ⟨?_, ih mid⟩
      rw [Inference.issued, ran]
      exact (Declaration.allScript limit rest).issued_le mid

namespace Checker

variable {checker : Checker} {modules : ModuleMap Span}

theorem moduleInferences_issued_le (key : String) (module : Module Span) (checker : Checker) :
    ∀ inference ∈ moduleInferences key module checker,
      inference.issued checker.limit ≤ (checkModule key module checker).2.supply.issued := by
  rw [moduleInferences]
  split
  · next env unique imported =>
    intro inference member
    have le := Declaration.inferences_issued_le module.declarations ((checker.checking key).start env) inference member
    rw [checkModule_of_imports checker unique imported]
    rcases ran : Declaration.inferAll checker.limit module.declarations ((checker.checking key).start env) with
      ⟨_ | _, mid⟩ <;> rwa [ran] at le
  · simp

/-- Inference in order takes no variable back. -/
theorem issued_le_checkInOrder (order : List String) (checker : Checker) :
    checker.supply.issued ≤ (checkInOrder modules order checker).2.supply.issued := by
  induction order generalizing checker with
  | nil => exact Nat.le_refl _
  | cons first rest ih =>
    cases isModule : modules.get? first with
    | none =>
      rw [checkInOrder, isModule]
      exact ih checker
    | some module =>
      obtain ⟨_, _, le, _⟩ := checkModule_run first module checker
      rw [checkInOrder_cons_run rest checker isModule]
      rcases ran : checkModule first module checker with ⟨_ | typed, mid⟩
      · rwa [ran] at le
      · rw [ran] at le
        exact Nat.le_trans le (ih { mid with checked := mid.checked.insert first typed })

theorem orderInferences_issued_le (order : List String) (checker : Checker) :
    ∀ inference ∈ orderInferences modules order checker,
      inference.issued checker.limit ≤ (checkInOrder modules order checker).2.supply.issued := by
  induction order generalizing checker with
  | nil => simp [orderInferences]
  | cons first rest ih =>
    cases isModule : modules.get? first with
    | none =>
      rw [orderInferences, checkInOrder, isModule]
      exact ih checker
    | some module =>
      obtain ⟨_, sameLimit, _, _⟩ := checkModule_run first module checker
      have here := moduleInferences_issued_le first module checker
      rw [orderInferences, isModule, checkInOrder_cons_run rest checker isModule]
      rcases ran : checkModule first module checker with ⟨_ | typed, mid⟩
      · rw [ran] at here
        simpa [ran] using here
      · rw [ran] at here sameLimit
        have limit : mid.limit = checker.limit := sameLimit
        let next : Checker := { mid with checked := mid.checked.insert first typed }
        refine List.forall_mem_append.mpr ⟨fun inference member => ?_, ?_⟩
        · exact Nat.le_trans (here inference member) (issued_le_checkInOrder rest next)
        · rw [ran, ← limit]
          exact ih next

/-- A call that ends with a count below the size of a word was below it all along. -/
theorem moments_issued_lt (fits : (checkModules modules checker).2.supply.issued < UInt32.size) :
    ∀ inference ∈ checker.inferences modules,
      ∀ moment ∈ (inference.declaration.script checker.limit).moments inference.state, moment.issued < UInt32.size := by
  intro inference member moment inInference
  cases isOrder : modules.dependencyOrder with
  | error error =>
    rw [inferences, isOrder] at member
    cases member
  | ok order =>
    rw [inferences, isOrder] at member
    have sameSupply : (checkModules modules checker).2.supply
        = (checkInOrder modules order (checker.ordering order)).2.supply := by
      rw [checkModules_of_order checker isOrder]
      rcases checkInOrder modules order (checker.ordering order) with ⟨_ | _, _⟩ <;> rfl
    rw [sameSupply] at fits
    calc moment.issued
        ≤ inference.issued checker.limit :=
          (inference.declaration.script checker.limit).moments_issued_le inference.state moment inInference
      _ ≤ (checkInOrder modules order (checker.ordering order)).2.supply.issued :=
          orderInferences_issued_le order (checker.ordering order) inference member
      _ < UInt32.size := fits

end Checker

end RowInference
