import Mathlib.Order.Interval.Finset.Nat
import RowInference.Proofs.Types.Flattening
import RowInference.Proofs.Unification.Soundness

/-! # Variables that are left

A settled substitution over some variables and those issued in the meantime leaves the ones it does not bind. It is
balanced when it binds more variables than have been issued, so that fewer are left than before. Nothing is asked of the
types: a variable may be used under two constraints, and the base of a record may be a record or no record at all.
-/

namespace RowInference

/-! ## Types over a set of variables -/

/-- Every variable of the type is in the set. -/
def Ty.Over (live : Finset VarId) (type : Ty) : Prop := ∀ v ∈ type.occurrences, v.id ∈ live

def Row.Over (live : Finset VarId) (row : Row) : Prop := ∀ v ∈ row.occurrences, v.id ∈ live

def Equation.Over (live : Finset VarId) (equation : Equation) : Prop :=
  equation.expected.Over live ∧ equation.actual.Over live

section Over

variable {live wider : Finset VarId}

theorem Ty.Over.mono {type : Ty} (inside : type.Over live) (sub : live ⊆ wider) : type.Over wider :=
  fun v inType => sub (inside v inType)

theorem Row.Over.mono {row : Row} (inside : row.Over live) (sub : live ⊆ wider) : row.Over wider :=
  fun v inRow => sub (inside v inRow)

/-- A row is over a set if its types are. -/
theorem Row.over_iff {row : Row} : row.Over live ↔ row.All (Ty.Over live) := by
  constructor
  · exact fun inside entry member v inType => inside v (Row.mem_occurrences.mpr ⟨entry, member, inType⟩)
  · intro all v inRow
    obtain ⟨entry, member, inType⟩ := Row.mem_occurrences.mp inRow
    exact all entry member v inType

theorem Row.Over.extend {row other : Row} (inside : row.Over live) (others : other.Over live) :
    (row.extend other).Over live :=
  Row.over_iff.mpr ((Row.over_iff.mp inside).extend (Row.over_iff.mp others))

theorem Row.Over.without {row : Row} (inside : row.Over live) (other : Row) : (row.without other).Over live :=
  Row.over_iff.mpr ((Row.over_iff.mp inside).without other)

theorem Ty.over_extension {base : Ty} {fields : Row} :
    (Ty.extension base fields).Over live ↔ base.Over live ∧ fields.Over live := by
  simp only [Ty.Over, Row.Over, Ty.occurrences, List.mem_append, or_imp, forall_and]

theorem Ty.over_var {v : TypeVar} : (Ty.var v).Over live ↔ v.id ∈ live := by
  simp [Ty.Over, Ty.occurrences]

theorem Ty.Over.openRow {tail : Ty} {fields : Row} (inside : tail.Over live) (fieldsOver : fields.Over live) :
    (tail.openRow fields).Over live := by
  rw [Ty.openRow]
  split
  · exact inside
  · exact Ty.over_extension.mpr ⟨inside, fieldsOver⟩

/-- The equations between the parts of types are over the variables of these types. -/
theorem components_over {expected actual : Ty} {equations : List Equation}
    (split : expected.components actual = some equations) (expectedOver : expected.Over live)
    (actualOver : actual.Over live) : ∀ equation ∈ equations, equation.Over live := by
  cases expected <;> cases actual <;> simp only [Ty.components, Option.some.injEq, reduceCtorEq] at split
  all_goals
    subst split
    simp_all [Equation.Over, Ty.Over, Ty.occurrences, or_imp, forall_and]

theorem Ty.mem_occurrences_of_tail {type tail : Ty} (isTail : type.rowParts.2 = some tail) {v : TypeVar}
    (inTail : v ∈ tail.occurrences) : v ∈ type.occurrences := by
  induction type using Ty.rowParts.induct with
  | case1 fields => simp [Ty.rowParts] at isTail
  | case2 base fields ih => exact List.mem_append_left _ (ih isTail)
  | case3 type notRecord notExtension =>
    rw [Ty.rowParts] at isTail
    · exact Option.some.inj isTail ▸ inTail
    all_goals assumption

theorem Ty.Over.fields {type : Ty} (inside : type.Over live) : type.rowParts.1.Over live := by
  induction type using Ty.rowParts.induct with
  | case1 fields => exact inside
  | case2 base fields ih =>
    obtain ⟨baseOver, fieldsOver⟩ := Ty.over_extension.mp inside
    exact (ih baseOver).extend fieldsOver
  | case3 type notRecord notExtension =>
    rw [Ty.rowParts]
    · simp [Row.Over, Row.occurrences]
    all_goals assumption

theorem Ty.Over.tail {type : Ty} (inside : type.Over live) {tail : Ty} (isTail : type.rowParts.2 = some tail) :
    tail.Over live := fun v inTail => inside v (Ty.mem_occurrences_of_tail isTail inTail)

/-- So are the equations between common fields. -/
theorem fieldEquations_over {expected actual : Ty} (left : expected.rowParts.1.Over live)
    (right : actual.rowParts.1.Over live) : ∀ equation ∈ fieldEquations expected actual, equation.Over live := by
  intro equation member
  obtain ⟨pair, inCommon, rfl⟩ := List.mem_map.mp member
  obtain ⟨key, inLeft, inRight⟩ := Row.mem_common inCommon
  exact ⟨Row.over_iff.mp left _ inLeft, (Row.over_iff.mp right).get? inRight⟩

end Over

/-- What is below the fields of a record is not a record. -/
theorem Ty.isRecord_tail {type tail : Ty} (isTail : type.rowParts.2 = some tail) : tail.isRecord = false := by
  induction type using Ty.rowParts.induct with
  | case1 fields => simp [Ty.rowParts] at isTail
  | case2 base fields ih => exact ih isTail
  | case3 type notRecord notExtension =>
    rw [Ty.rowParts] at isTail
    · obtain rfl := Option.some.inj isTail
      cases type
      case record fields => exact (notRecord fields rfl).elim
      case extension base fields => exact (notExtension base fields rfl).elim
      all_goals rfl
    all_goals assumption

/-! ## Substitutions over a set of variables -/

/-- The variables of a set and those issued between two moments. -/
def pool (live : Finset VarId) (start issued : Nat) : Finset VarId :=
  live ∪ (Finset.Ico start issued).image VarId.generated

/-- The generated variables of a set have been issued. -/
def AllIssued (live : Finset VarId) (issued : Nat) : Prop := ∀ index, VarId.generated index ∈ live → index < issued

/-- The variables that are left when some have been bound. -/
def remaining (live : Finset VarId) (start : Nat) (found : Substitution) (issued : Nat) : Finset VarId :=
  pool live start issued \ found.domain

/-- The substitution is settled, and it is about the variables of a set and those issued in the meantime. -/
structure Confined (live : Finset VarId) (start : Nat) (found : Substitution) (issued : Nat) : Prop where
  issues : start ≤ issued
  settled : found.Settled
  keys : found.domain ⊆ pool live start issued
  types : ∀ ⦃id : VarId⦄ ⦃type : Ty⦄, found[id]? = some type → type.Over (pool live start issued)

section Pool

variable {live : Finset VarId} {start issued issued' : Nat} {found solved : Substitution}

/-- The variables of a set and those issued since. -/
theorem mem_pool {id : VarId} :
    id ∈ pool live start issued ↔ id ∈ live ∨ ∃ index, start ≤ index ∧ index < issued ∧ id = .generated index := by
  simp [pool, eq_comm, and_assoc]

theorem subset_pool : live ⊆ pool live start issued := Finset.subset_union_left

theorem pool_self : pool live start start = live := by simp [pool]

theorem pool_mono (le : issued ≤ issued') : pool live start issued ⊆ pool live start issued' := by
  intro id inPool
  rw [mem_pool] at inPool ⊢
  refine inPool.imp_right ?_
  rintro ⟨index, above, below, same⟩
  exact ⟨index, above, Nat.lt_of_lt_of_le below le, same⟩

theorem AllIssued.mono (below : AllIssued live start) (le : start ≤ issued) : AllIssued live issued :=
  fun index inLive => Nat.lt_of_lt_of_le (below index inLive) le

theorem AllIssued.grown (below : AllIssued live start) (le : start ≤ issued) :
    AllIssued (pool live start issued) issued := by
  intro index inPool
  rcases mem_pool.mp inPool with inLive | ⟨other, _, bound, same⟩
  · exact Nat.lt_of_lt_of_le (below index inLive) le
  · cases same
    exact bound

theorem AllIssued.left (below : AllIssued live start) (le : start ≤ issued) :
    AllIssued (remaining live start found issued) issued :=
  fun index left => below.grown le index (Finset.sdiff_subset left)

/-- What is left of a set, with what is issued later, is part of the set with all that is issued. -/
theorem pool_remaining (first : start ≤ issued) (second : issued ≤ issued') :
    pool (remaining live start solved issued) issued issued' ⊆ pool live start issued' := by
  intro id inPool
  rcases mem_pool.mp inPool with left | ⟨index, above, below, same⟩
  · exact pool_mono second (Finset.sdiff_subset left)
  · exact mem_pool.mpr (.inr ⟨index, Nat.le_trans first above, below, same⟩)

namespace Confined

theorem empty (live : Finset VarId) (start : Nat) : Confined live start {} start where
  issues := Nat.le_refl _
  settled := Substitution.settled_empty
  keys := by simp [Substitution.domain_eq_empty.mpr]
  types _ _ bound := by simp at bound

theorem mono (confined : Confined live start found issued) (le : issued ≤ issued') :
    Confined live start found issued' where
  issues := Nat.le_trans confined.issues le
  settled := confined.settled
  keys := confined.keys.trans (pool_mono le)
  types _ _ bound := (confined.types bound).mono (pool_mono le)

/-- A variable outside the pool is not bound. -/
theorem unbound (confined : Confined live start found issued) {id : VarId} (outside : id ∉ pool live start issued) :
    found[id]? = none := by
  by_contra bound
  exact outside (confined.keys (Substitution.mem_domain.mpr bound))

/-- Application leaves variables that have not been bound. -/
theorem apply_over (confined : Confined live start found issued) {type : Ty}
    (inside : type.Over (pool live start issued)) : (found.apply type).Over (remaining live start found issued) := by
  intro u member
  have unbound := Substitution.unbound_of_mem_apply confined.settled.acyclic member
  refine Finset.mem_sdiff.mpr ⟨?_, fun bound => Substitution.mem_domain.mp bound unbound⟩
  obtain ⟨v, inType, inValue⟩ := Substitution.mem_occurrences_apply member
  rcases confined.settled.mem_occurrences_value inValue with ⟨rfl, _⟩ | ⟨replacement, bound, inReplacement⟩
  · exact inside u inType
  · exact confined.types bound u inReplacement

variable (below : AllIssued live start) (confined : Confined live start solved issued)
  (next : Confined (remaining live start solved issued) issued found issued')

include below confined next

/-- What is found next is apart from what was found before: it is about the variables that were left. -/
theorem apart : solved.Apart found := by
  have unbound : ∀ {id : VarId}, id ∈ pool (remaining live start solved issued) issued issued' →
    solved[id]? = none := by
    intro id inPool
    by_contra bound
    rcases mem_pool.mp inPool with left | ⟨index, above, _, rfl⟩
    · exact (Finset.mem_sdiff.mp left).2 (Substitution.mem_domain.mpr bound)
    · have old := below.grown confined.issues index (confined.keys (Substitution.mem_domain.mpr bound))
      omega
  refine ⟨fun id type bound => unbound (next.keys (Substitution.mem_domain.mpr ?_)), fun id type bound v inType =>
    unbound (next.types bound v inType)⟩
  rw [bound]
  exact Option.some_ne_none _

/-- Confined substitutions compose to a confined one. -/
theorem compose : Confined live start (found.compose solved) issued' where
  issues := Nat.le_trans confined.issues next.issues
  settled := confined.settled.compose (apart below confined next) next.settled
  keys := by
    rw [Substitution.domain_compose]
    exact Finset.union_subset (confined.keys.trans (pool_mono next.issues))
      (next.keys.trans (pool_remaining confined.issues next.issues))
  types := by
    have wider : pool (remaining live start solved issued) issued issued' ⊆ pool live start issued' :=
      pool_remaining confined.issues next.issues
    intro id type bound
    rw [Substitution.getElem?_compose] at bound
    rcases Option.or_eq_some_iff.mp bound with old | ⟨_, new⟩
    · obtain ⟨previous, inSolved, rfl⟩ := Option.map_eq_some_iff.mp old
      intro u member
      obtain ⟨v, inPrevious, inValue⟩ := Substitution.mem_occurrences_apply member
      rcases next.settled.mem_occurrences_value inValue with ⟨rfl, _⟩ | ⟨replacement, replaced, inReplacement⟩
      · exact pool_mono next.issues (confined.types inSolved u inPrevious)
      · exact wider (next.types replaced u inReplacement)
    · exact (next.types new).mono wider

theorem card_compose : (found.compose solved).domain.card = solved.domain.card + found.domain.card :=
  Substitution.card_domain_compose (apart below confined next)

omit below next in
/-- With every binding fewer variables are left, and with every issued variable more. -/
theorem card_remaining :
    (remaining live start solved issued).card + solved.domain.card ≤ live.card + (issued - start) := by
  have all : (pool live start issued).card ≤ live.card + (issued - start) := by
    refine (Finset.card_union_le _ _).trans (Nat.add_le_add_left ?_ _)
    exact Finset.card_image_le.trans_eq (Nat.card_Ico _ _)
  rw [remaining, Finset.card_sdiff_of_subset confined.keys]
  have := Finset.card_le_card confined.keys
  omega

end Confined

end Pool

/-! ## Gains -/

/-- More variables have been bound than issued, unless nothing was found. -/
structure Balanced (live : Finset VarId) (start : Nat) (found : Substitution) (issued : Nat) : Prop
    extends Confined live start found issued where
  gains : found = {} ∧ issued = start ∨ issued - start < found.domain.card

namespace Balanced

variable {live : Finset VarId} {start issued issued' : Nat} {found solved : Substitution}

theorem empty (live : Finset VarId) (start : Nat) : Balanced live start {} start :=
  ⟨.empty live start, .inl ⟨rfl, rfl⟩⟩

theorem loses (balanced : Balanced live start found issued) : issued - start ≤ found.domain.card := by
  rcases balanced.gains with ⟨rfl, rfl⟩ | more
  · omega
  · omega

/-- If anything is found, fewer variables are issued than bound. -/
theorem gains_of_ne (balanced : Balanced live start found issued) (nonempty : found ≠ {}) :
    issued - start < found.domain.card := balanced.gains.resolve_left fun nothing => nonempty nothing.1

/-- If anything is found, fewer variables are left. -/
theorem card_remaining_lt (balanced : Balanced live start found issued) (nonempty : found ≠ {}) :
    (remaining live start found issued).card < live.card := by
  have := balanced.card_remaining
  have := balanced.gains_of_ne nonempty
  omega

/-- Balanced substitutions compose to a balanced one. -/
theorem compose (below : AllIssued live start) (balanced : Balanced live start solved issued)
    (next : Balanced (remaining live start solved issued) issued found issued') :
    Balanced live start (found.compose solved) issued' where
  toConfined := balanced.toConfined.compose below next.toConfined
  gains := by
    have count := balanced.toConfined.card_compose below next.toConfined
    have := balanced.issues
    have := next.issues
    rcases balanced.gains with ⟨rfl, rfl⟩ | more
    · rw [Substitution.compose_empty]
      exact next.gains
    · have := next.loses
      omega

/-- Two open records get a shared tail. Both tails, or one of them and something in the fields, have been bound, which
makes up for the new variable. -/
theorem share {shared third : Nat} {first second : Substitution} (below : AllIssued live start)
    (balanced : Balanced live start solved issued)
    (ofFirst : Balanced (remaining live start solved (issued + 1)) (issued + 1) first shared)
    (ofSecond : Balanced (remaining live start (first.compose solved) shared) shared second third)
    (firstBinds : first ≠ {}) (binds : solved ≠ {} ∨ second ≠ {}) :
    Balanced live start (second.compose (first.compose solved)) third where
  toConfined := ((balanced.toConfined.mono (Nat.le_succ _)).compose below ofFirst.toConfined).compose below
    ofSecond.toConfined
  gains := by
    have fields := balanced.toConfined.mono (Nat.le_succ _)
    have count := fields.card_compose below ofFirst.toConfined
    have count' := (fields.compose below ofFirst.toConfined).card_compose below ofSecond.toConfined
    have := balanced.issues
    have := ofFirst.issues
    have := ofSecond.issues
    have := balanced.loses
    have := ofFirst.gains_of_ne firstBinds
    have := ofSecond.loses
    right
    rcases binds with nonempty | nonempty
    · have := balanced.gains_of_ne nonempty
      omega
    · have := ofSecond.gains_of_ne nonempty
      omega

end Balanced

end RowInference
