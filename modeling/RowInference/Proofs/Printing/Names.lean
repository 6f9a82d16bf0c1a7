import RowInference.Types.Printer
import RowInference.Proofs.Types.Letters
import RowInference.Proofs.Types.Numbering

/-! # Names of printed variables

The name of a variable tells its class, and among the variables of one class different ones have different names. The
names of a list of types depend only on the order in which the variables are met, not on their identities.

A name of letters could be mistaken for that of a constrained variable only if it began with `number` or `appendable`.
There are 176165747 shorter or earlier words.
-/

namespace RowInference

variable {label : VarId → VarId} {names names' : Names} {types : List Ty} {v u : TypeVar}

/-! ## The order of names -/

mutual

/-- Names are given to the variables that occur, in another order. -/
theorem Ty.namingOrder_perm : ∀ type : Ty, type.namingOrder.Perm type.occurrences
  | .unit | .bool | .char | .string | .int | .float | .var _ => .refl _
  | .tuple first second => (Ty.namingOrder_perm first).append (Ty.namingOrder_perm second)
  | .triple first second third =>
    (Ty.namingOrder_perm first).append ((Ty.namingOrder_perm second).append (Ty.namingOrder_perm third))
  | .list element => Ty.namingOrder_perm element
  | .function source target => (Ty.namingOrder_perm source).append (Ty.namingOrder_perm target)
  | .record fields => Row.namingOrder_perm fields
  | .extension base fields =>
    ((Row.namingOrder_perm fields).append (Ty.namingOrder_perm base)).trans List.perm_append_comm

theorem Row.namingOrder_perm : ∀ row : Row, row.namingOrder.Perm row.occurrences
  | .empty => .refl _
  | .field _ type rest => (Ty.namingOrder_perm type).append (Row.namingOrder_perm rest)

end

mutual

/-- Other identities do not change the order in which variables are named. -/
theorem Ty.namingOrder_relabel :
    ∀ type : Ty, (type.relabel label).namingOrder = type.namingOrder.map (TypeVar.relabel label)
  | .unit | .bool | .char | .string | .int | .float | .var _ => rfl
  | .tuple first second => by
    simp [Ty.relabel, Ty.namingOrder, Ty.namingOrder_relabel first, Ty.namingOrder_relabel second]
  | .triple first second third => by
    simp [Ty.relabel, Ty.namingOrder, Ty.namingOrder_relabel first, Ty.namingOrder_relabel second,
      Ty.namingOrder_relabel third]
  | .list element => by simp [Ty.relabel, Ty.namingOrder, Ty.namingOrder_relabel element]
  | .function source target => by
    simp [Ty.relabel, Ty.namingOrder, Ty.namingOrder_relabel source, Ty.namingOrder_relabel target]
  | .record fields => by simp [Ty.relabel, Ty.namingOrder, Row.namingOrder_relabel fields]
  | .extension base fields => by
    simp [Ty.relabel, Ty.namingOrder, Ty.namingOrder_relabel base, Row.namingOrder_relabel fields]

theorem Row.namingOrder_relabel :
    ∀ row : Row, (row.relabel label).namingOrder = row.namingOrder.map (TypeVar.relabel label)
  | .empty => rfl
  | .field _ type rest => by
    simp [Row.relabel, Row.namingOrder, Ty.namingOrder_relabel type, Row.namingOrder_relabel rest]

end

/-! ## Text and names -/

mutual

/-- The text shows the names of the variables and nothing else of them. -/
theorem Ty.render_relabel : ∀ (type : Ty) (context : PrintContext),
    (∀ v ∈ type.occurrences, names'.name (label v.id) = names.name v.id) →
    (type.relabel label).render names' context = type.render names context
  | .unit, _, _ | .bool, _, _ | .char, _, _ | .string, _, _ | .int, _, _ | .float, _, _ => by
      simp [Ty.relabel, Ty.render]
  | .var v, _, same => by simpa [Ty.relabel, Ty.render] using same v (List.mem_singleton_self v)
  | .tuple first second, _, same => by
    obtain ⟨left, right⟩ := List.forall_mem_append.mp same
    simp [Ty.relabel, Ty.render, Ty.render_relabel first _ left, Ty.render_relabel second _ right]
  | .triple first second third, _, same => by
    obtain ⟨left, others⟩ := List.forall_mem_append.mp same
    obtain ⟨middle, right⟩ := List.forall_mem_append.mp others
    simp [Ty.relabel, Ty.render, Ty.render_relabel first _ left, Ty.render_relabel second _ middle,
      Ty.render_relabel third _ right]
  | .list element, _, same => by simp [Ty.relabel, Ty.render, Ty.render_relabel element _ same]
  | .function source target, _, same => by
    obtain ⟨left, right⟩ := List.forall_mem_append.mp same
    simp [Ty.relabel, Ty.render, Ty.render_relabel source _ left, Ty.render_relabel target _ right]
  | .record .empty, _, _ => by simp [Ty.relabel, Row.relabel, Ty.render]
  | .record (.field _ type rest), _, same => by
    obtain ⟨here, there⟩ := List.forall_mem_append.mp same
    simp [Ty.relabel, Row.relabel, Ty.render, Ty.render_relabel type _ here, Row.renderMore_relabel rest there]
  | .extension base .empty, _, same => by
    obtain ⟨left, _⟩ := List.forall_mem_append.mp same
    simp [Ty.relabel, Row.relabel, Ty.render, Ty.render_relabel base _ left]
  | .extension base (.field _ type rest), _, same => by
    obtain ⟨left, right⟩ := List.forall_mem_append.mp same
    obtain ⟨here, there⟩ := List.forall_mem_append.mp right
    simp [Ty.relabel, Row.relabel, Ty.render, Ty.render_relabel base _ left, Ty.render_relabel type _ here,
      Row.renderMore_relabel rest there]

theorem Row.renderMore_relabel : ∀ row : Row, (∀ v ∈ row.occurrences, names'.name (label v.id) = names.name v.id) →
    (row.relabel label).renderMore names' = row.renderMore names
  | .empty, _ => by simp [Row.relabel, Row.renderMore]
  | .field _ type rest, same => by
    obtain ⟨here, there⟩ := List.forall_mem_append.mp same
    simp [Row.relabel, Row.renderMore, Ty.render_relabel type _ here, Row.renderMore_relabel rest there]

end

/-- Only the names of the variables in a type matter for its text. -/
theorem Ty.render_congr {type : Ty} {context : PrintContext}
    (same : ∀ v ∈ type.occurrences, names'.name v.id = names.name v.id) :
    type.render names' context = type.render names context := by
  have relabelled : (type.relabel id).render names' context = type.render names context :=
    Ty.render_relabel type context same
  rwa [Ty.relabel_id] at relabelled

namespace Names

/-- The name of a variable with a number among those of its class. -/
def numbered : Option Constraint → Nat → String
  | none, number => letterName number
  | some constraint, number => constrained constraint number

def count (names : Names) : Option Constraint → Nat
  | none => names.plain
  | some .number => names.numbers
  | some .appendable => names.appendables

/-- The table of names, with one count for each class. -/
def numbering : Numbering Names (Option Constraint) String where
  sort := TypeVar.constraint
  given v number := numbered v.constraint number
  meet := assign
  find names id := names.given[id]?
  count := count
  meet_known known := if_pos (contains_eq_true.mpr known)
  find_meet {table v} missing id := by
    obtain ⟨key, constraint⟩ := v
    rw [assign, if_neg (contains_eq_true.not_left.mpr missing)]
    rcases constraint with _ | _ | _ <;> exact getElem?_insert ..
  count_meet {table v} missing kind := by
    obtain ⟨key, constraint⟩ := v
    rw [assign, if_neg (contains_eq_true.not_left.mpr missing)]
    rcases constraint with _ | _ | _ <;> rcases kind with _ | _ | _ <;> rfl

theorem lists_nil : numbering.Lists {} [] where
  found _ member := by cases member
  missing _ _ := by simp [numbering]
  counted kind := by rcases kind with _ | _ | _ <;> rfl

/-! ## Printing several types -/

def ofTypes (types : List Ty) : Names := types.foldl assignAll {}

/-- A name stays when more types are named. -/
theorem name_foldl (type : Ty) (member : v ∈ type.occurrences) (types : List Ty) :
    (types.foldl assignAll (names.assignAll type)).name v.id = (names.assignAll type).name v.id := by
  have known : numbering.find (names.assignAll type) v.id ≠ none :=
    numbering.find_foldl_of_mem ((type.namingOrder_perm.mem_iff).mpr member)
  have kept := numbering.find_foldl known (types.flatMap Ty.namingOrder)
  rw [List.foldl_flatMap] at kept
  exact congrArg (Option.getD · v.id.text) kept

/-- Types printed in order are printed with the names of them all. -/
theorem printAll_eq (names : Names) (types : List Ty) :
    names.printAll types = types.map (Ty.render (types.foldl assignAll names) .top) := by
  induction types generalizing names with
  | nil => rfl
  | cons type rest ih =>
    have first : type.render (rest.foldl assignAll (names.assignAll type)) .top
        = type.render (names.assignAll type) .top :=
      Ty.render_congr fun v member => name_foldl type member rest
    rw [List.map_cons, List.foldl_cons, first, ← ih]
    rfl

/-- Names depend on the order in which the variables are met. -/
theorem name_ofTypes (uniform : Uniform (types.flatMap Ty.namingOrder)) (member : v ∈ types.flatMap Ty.namingOrder) :
    (ofTypes types).name v.id =
      numbered v.constraint (place TypeVar.constraint (types.flatMap Ty.namingOrder).eraseDups v) := by
  have lists := Numbering.lists_foldl lists_nil uniform
  have found := lists.found v (List.mem_eraseDups.mpr member)
  rw [List.foldl_flatMap] at found
  exact (congrArg (Option.getD · v.id.text) found).trans rfl

/-- Types that differ in the choice of variables have the same names. -/
theorem name_ofTypes_relabel (injective : Function.Injective label) (uniform : Uniform (types.flatMap Ty.namingOrder))
    (member : v ∈ types.flatMap Ty.namingOrder) :
    (ofTypes (types.map (Ty.relabel label))).name (label v.id) = (ofTypes types).name v.id := by
  have order : (types.map (Ty.relabel label)).flatMap Ty.namingOrder
      = (types.flatMap Ty.namingOrder).map (TypeVar.relabel label) := by
    simp only [List.flatMap_map, List.map_flatMap, Ty.namingOrder_relabel]
  have uniform' : Uniform ((types.map (Ty.relabel label)).flatMap Ty.namingOrder) := by
    rw [order]
    exact uniform.relabel injective.injOn
  have member' : v.relabel label ∈ (types.map (Ty.relabel label)).flatMap Ty.namingOrder := by
    rw [order]
    exact List.mem_map_of_mem member
  have varInjective := TypeVar.relabel_injective injective
  have named := name_ofTypes uniform' member'
  rw [order, eraseDups_map varInjective, place_map varInjective TypeVar.relabel_constraint] at named
  exact named.trans (name_ofTypes uniform member).symm

end Names

/-! ## Classes -/

/-- Whether names of fields and variables may contain the character. -/
def isWordChar (char : Char) : Bool := char.isAlphanum || char = '_'

/-- The class whose name a word begins with. -/
def classOf (word : List Char) : Option Constraint :=
  [Constraint.number, .appendable].find? fun constraint => constraint.name.toList.isPrefixOf word

/-- A word by which a variable of some class can be told: not the name of a type, and not of a variable of another
class. -/
structure IsName (word : List Char) (constraint : Option Constraint) : Prop where
  chars : ∀ char ∈ word, isWordChar char = true
  begins : ∃ char rest, word = char :: rest ∧ char.isLower = true
  shows : classOf word = constraint

theorem isWordChar_of_isLower {char : Char} (lower : char.isLower = true) : isWordChar char = true := by
  change (char.isUpper || char.isLower || char.isDigit || char = '_') = true
  rw [lower, Bool.or_true, Bool.true_or, Bool.true_or]

theorem isWordChar_of_isDigit {char : Char} (digit : char.isDigit = true) : isWordChar char = true := by
  rw [isWordChar, Char.isAlphanum, digit, Bool.or_true, Bool.true_or]

/-- Words of letters are told from names of types and of constrained variables, as long as there are not too many. -/
theorem isName_letters {number : Nat} (few : number < 176165747) : IsName (letters number) none where
  chars _ member := isWordChar_of_isLower (isLower_of_mem_letters member)
  begins := by
    obtain ⟨char, rest, shape⟩ := List.exists_cons_of_ne_nil (letters_ne_nil number)
    exact ⟨char, rest, shape, isLower_of_mem_letters (shape ▸ List.mem_cons_self ..)⟩
  shows := by
    refine List.find?_eq_none.mpr fun constraint _ begins => ?_
    have bound := wordNumber_le_of_prefix (List.isPrefixOf_iff_prefix.mp begins)
    have late : 176165748 ≤ wordNumber constraint.name.toList := by cases constraint <;> decide
    omega

/-- The bound is sharp. -/
example : letterName 176165747 = "number" := by cbv

namespace Names

theorem toList_constrained (constraint : Constraint) (number : Nat) : (constrained constraint number).toList =
    constraint.name.toList ++ if number = 0 then [] else Nat.toDigits 10 number := by
  rw [constrained]
  split <;> simp

/-- Different numbers make different names. -/
theorem constrained_injective (constraint : Constraint) : Function.Injective (constrained constraint) := by
  intro left right same
  have digits := congrArg String.toList same
  rw [toList_constrained, toList_constrained, List.append_cancel_left_eq] at digits
  have number : ∀ number, Nat.ofDigitChars 10 (if number = 0 then [] else Nat.toDigits 10 number) 0 = number := by
    intro number
    split <;> simp_all
  rw [← number left, digits, number right]

/-- The name of a constrained variable tells its class. -/
theorem isName_constrained (constraint : Constraint) (number : Nat) :
    IsName (constrained constraint number).toList (some constraint) := by
  rw [toList_constrained]
  refine ⟨fun char member => ?_, ?_, ?_⟩
  · rcases List.mem_append.mp member with inClass | inNumber
    · have lower : constraint.name.toList.all Char.isLower = true := by cases constraint <;> rfl
      exact isWordChar_of_isLower (List.all_eq_true.mp lower char inClass)
    · split at inNumber
      · cases inNumber
      · exact isWordChar_of_isDigit (Nat.isDigit_of_mem_toDigits (by decide) (by decide) inNumber)
  · cases constraint <;> exact ⟨_, _, rfl, by decide⟩
  · cases constraint <;> rfl

theorem isName_numbered {constraint : Option Constraint} {number : Nat} (few : constraint = none → number < 176165747) :
    IsName (numbered constraint number).toList constraint := by
  cases constraint with
  | none =>
    rw [numbered, letterName, String.toList_ofList]
    exact isName_letters (few rfl)
  | some constraint => exact isName_constrained constraint number

/-- Within a class different numbers make different names. -/
theorem numbered_injective (constraint : Option Constraint) : Function.Injective (numbered constraint) := by
  cases constraint with
  | none => exact letterName_injective
  | some constraint => exact constrained_injective constraint

end Names

/-! ## Types with few variables -/

/-- No identity is used under two constraints, and there are not so many unconstrained variables that one of them
would be named like a constrained one. -/
structure Nameable (types : List Ty) : Prop where
  uniform : Uniform (types.flatMap Ty.occurrences)
  few : ((types.flatMap Ty.occurrences).eraseDups.filter fun v => v.constraint = none).length < 176165747

namespace Nameable

theorem mem_order : v ∈ types.flatMap Ty.namingOrder ↔ v ∈ types.flatMap Ty.occurrences := by
  simp only [List.mem_flatMap, (Ty.namingOrder_perm _).mem_iff]

theorem uniform_order (nameable : Nameable types) : Uniform (types.flatMap Ty.namingOrder) :=
  nameable.uniform.mono fun _ => mem_order.mp

theorem order_perm (types : List Ty) :
    (types.flatMap Ty.namingOrder).eraseDups.Perm (types.flatMap Ty.occurrences).eraseDups := by
  refine (List.perm_ext_iff_of_nodup (nodup_eraseDups _) (nodup_eraseDups _)).mpr fun v => ?_
  rw [List.mem_eraseDups, List.mem_eraseDups, mem_order]

/-- The number of an unconstrained variable is small enough for its name to be told. -/
theorem place_lt (nameable : Nameable types) (member : v ∈ types.flatMap Ty.occurrences) (plain : v.constraint = none) :
    place TypeVar.constraint (types.flatMap Ty.namingOrder).eraseDups v < 176165747 := by
  have bound : place TypeVar.constraint (types.flatMap Ty.namingOrder).eraseDups v
      < ((types.flatMap Ty.namingOrder).eraseDups.filter fun u => u.constraint = v.constraint).length :=
    RowInference.place_lt (List.mem_eraseDups.mpr (mem_order.mpr member))
  rw [plain, ((order_perm types).filter _).length_eq] at bound
  exact bound.trans nameable.few

/-- Every variable of nameable types has a name that tells its class. -/
theorem isName (nameable : Nameable types) (member : v ∈ types.flatMap Ty.occurrences) :
    IsName ((Names.ofTypes types).name v.id).toList v.constraint := by
  rw [Names.name_ofTypes nameable.uniform_order (mem_order.mpr member)]
  exact Names.isName_numbered (nameable.place_lt member)

/-- Different variables have different names. -/
theorem id_eq_of_name_eq (nameable : Nameable types) (inTypes : v ∈ types.flatMap Ty.occurrences)
    (inTypes' : u ∈ types.flatMap Ty.occurrences)
    (same : (Names.ofTypes types).name v.id = (Names.ofTypes types).name u.id) : v.id = u.id := by
  have sameClass : v.constraint = u.constraint := by
    rw [← (nameable.isName inTypes).shows, same, (nameable.isName inTypes').shows]
  rw [Names.name_ofTypes nameable.uniform_order (mem_order.mpr inTypes),
    Names.name_ofTypes nameable.uniform_order (mem_order.mpr inTypes'), sameClass] at same
  have samePlace := Names.numbered_injective _ same
  exact congrArg TypeVar.id (eq_of_place_eq (List.mem_eraseDups.mpr (mem_order.mpr inTypes)) sameClass samePlace)

end Nameable

end RowInference
