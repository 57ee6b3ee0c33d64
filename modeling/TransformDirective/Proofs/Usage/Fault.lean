import Mathlib.Tactic.SplitIfs
import TransformDirective.Usage.Check

namespace TransformDirective.Usage

open TransformDirective.Schema TransformDirective.Config

def IsListType (t : TypeRef) : Prop := ∃ item, t = .list item ∨ t = .nonNull (.list item)

/-- What can be wrong with the only usage on a field. Several faults may hold of one usage. -/
inductive UsageFault (settings : Settings) (t : TypeDefinition) (f : Field) (d : Directive) :
    Reason → Prop where
  | onInterface (h : t.kind = .interface) : UsageFault settings t f d .onInterface
  | noModel (h : ∀ m ∈ t.directives, m.name ≠ settings.modelDirective) :
      UsageFault settings t f d (.noModel settings.modelDirective)
  | unknownArgument (front : List Argument) (a : Argument) (back : List Argument)
      (split : d.arguments = front ++ a :: back)
      (known : ∀ b ∈ front, b.name ∈ ["expression", "foreach", "always"])
      (unknown : a.name ∉ ["expression", "foreach", "always"]) :
      UsageFault settings t f d (.arguments (.unknown a.name))
  | noExpression (h : d.argument? "expression" = none) :
      UsageFault settings t f d (.arguments (.missing "expression"))
  | expressionKind (v : Value) (h : d.argument? "expression" = some v)
      (kind : ∀ s, v ≠ .string s) :
      UsageFault settings t f d (.arguments (.wrongKind "expression" "String" v.kindName))
  | flagKind (name : String) (flag : name ∈ ["foreach", "always"]) (v : Value)
      (h : d.argument? name = some v) (notNull : v ≠ .null) (kind : ∀ b, v ≠ .bool b) :
      UsageFault settings t f d (.arguments (.wrongKind name "Boolean" v.kindName))
  | notAList (h : d.argument? "foreach" = some (.bool true)) (kind : ¬IsListType f.type) :
      UsageFault settings t f d (.notAList f.type)

/-- What can be wrong with a field. -/
inductive Fault (settings : Settings) (t : TypeDefinition) (f : Field) : Reason → Prop where
  | repeated (h : 2 ≤ (f.directivesNamed settings.directiveName).length) :
      Fault settings t f .repeated
  | usage (d : Directive) (r : Reason) (h : f.directivesNamed settings.directiveName = [d])
      (fault : UsageFault settings t f d r) : Fault settings t f r

/-- The place of a reason in the order in which faults are reported. -/
def rank : Reason → Nat
  | .repeated => 0
  | .onInterface => 1
  | .noModel _ => 2
  | .arguments (.unknown _) => 3
  | .arguments (.missing _) => 4
  | .arguments (.wrongKind a _ _) => if a = "expression" then 4 else if a = "foreach" then 5 else 6
  | .notAList _ => 7

def refusal (settings : Settings) (t : TypeDefinition) (f : Field) (r : Reason) : Misuse :=
  ⟨settings.directiveName, t.name, f.name, r⟩

/-- The refusal is the one of the first field with a fault, for the least of its faults. -/
def FirstFault (settings : Settings) (d : Document) (e : Misuse) : Prop :=
  ∃ front t f back r, fieldsOf d = front ++ (t, f) :: back ∧
    (∀ x ∈ front, ∀ q, ¬Fault settings x.1 x.2 q) ∧
    Fault settings t f r ∧ (∀ q, Fault settings t f q → rank r ≤ rank q) ∧
    e = refusal settings t f r

section Usage

variable {settings : Settings} {t : TypeDefinition} {f : Field} {d : Directive}

theorem isList_iff (u : TypeRef) : u.isList = true ↔ IsListType u := by
  unfold IsListType
  cases u with
  | named n => simp [TypeRef.isList, TypeRef.nullable]
  | list item => simp [TypeRef.isList, TypeRef.nullable]
  | nonNull inner => cases inner <;> simp [TypeRef.isList, TypeRef.nullable]

/-- The first argument that is not known is reported. -/
theorem unknown?_eq_some_iff (name : String) : Arguments.unknown? d = some name ↔
    ∃ front a back, d.arguments = front ++ a :: back ∧
      (∀ b ∈ front, b.name ∈ ["expression", "foreach", "always"]) ∧
      a.name ∉ ["expression", "foreach", "always"] ∧ a.name = name := by
  unfold Arguments.unknown? Arguments.names
  rw [Option.map_eq_some_iff]
  simp only [List.find?_eq_some_iff_append, Bool.not_eq_eq_eq_not, List.contains_eq_mem,
    decide_eq_false_iff_not, Bool.not_true, decide_eq_true_eq, Bool.not_not]
  constructor
  · rintro ⟨a, ⟨unknown, front, back, split, known⟩, rfl⟩
    exact ⟨front, a, back, split, by simpa using known, unknown, rfl⟩
  · rintro ⟨front, a, back, split, known, unknown, rfl⟩
    exact ⟨a, ⟨unknown, front, back, split, by simpa using known⟩, rfl⟩

/-- A flag is given as something else than a Boolean or null. -/
def BadFlag (d : Directive) (name : String) (r : Reason) : Prop :=
  ∃ v, d.argument? name = some v ∧ v ≠ .null ∧ (∀ b, v ≠ .bool b) ∧
    r = .arguments (.wrongKind name "Boolean" v.kindName)

/-- The expression is not given as a string. -/
def BadExpression (d : Directive) (r : Reason) : Prop :=
  (d.argument? "expression" = none ∧ r = .arguments (.missing "expression")) ∨
  ∃ v, d.argument? "expression" = some v ∧ (∀ s, v ≠ .string s) ∧
    r = .arguments (.wrongKind "expression" "String" v.kindName)

/-- The faults of a usage by their ranks: of each rank there is one at most. -/
theorem usageFault_iff (r : Reason) : UsageFault settings t f d r ↔
    (rank r = 1 ∧ t.kind = .interface ∧ r = .onInterface) ∨
    (rank r = 2 ∧ (∀ m ∈ t.directives, m.name ≠ settings.modelDirective) ∧
      r = .noModel settings.modelDirective) ∨
    (rank r = 3 ∧ ∃ name, Arguments.unknown? d = some name ∧
      r = .arguments (.unknown name)) ∨
    (rank r = 4 ∧ BadExpression d r) ∨
    (rank r = 5 ∧ BadFlag d "foreach" r) ∨
    (rank r = 6 ∧ BadFlag d "always" r) ∨
    (rank r = 7 ∧ d.argument? "foreach" = some (.bool true) ∧ ¬IsListType f.type ∧
      r = .notAList f.type) := by
  constructor
  · intro h
    cases h with
    | onInterface h => exact .inl ⟨rfl, h, rfl⟩
    | noModel h => exact .inr (.inl ⟨rfl, h, rfl⟩)
    | unknownArgument front a back split known unknown =>
      have first := (unknown?_eq_some_iff _).mpr ⟨front, a, back, split, known, unknown, rfl⟩
      exact .inr (.inr (.inl ⟨rfl, a.name, first, rfl⟩))
    | noExpression h => exact .inr (.inr (.inr (.inl ⟨rfl, .inl ⟨h, rfl⟩⟩)))
    | expressionKind v h kind =>
      exact .inr (.inr (.inr (.inl ⟨by simp [rank], .inr ⟨v, h, kind, rfl⟩⟩)))
    | flagKind name flag v h notNull kind =>
      simp only [List.mem_cons, List.not_mem_nil, or_false] at flag
      rcases flag with rfl | rfl
      · exact .inr (.inr (.inr (.inr (.inl ⟨by simp [rank], v, h, notNull, kind, rfl⟩))))
      · exact .inr (.inr (.inr (.inr (.inr (.inl ⟨by simp [rank], v, h, notNull, kind, rfl⟩)))))
    | notAList h kind => exact .inr (.inr (.inr (.inr (.inr (.inr ⟨rfl, h, kind, rfl⟩)))))
  · rintro (⟨-, h, rfl⟩ | ⟨-, h, rfl⟩ | ⟨-, name, h, rfl⟩ | ⟨-, ⟨h, rfl⟩ | ⟨v, h, kind, rfl⟩⟩ |
      ⟨-, v, h, notNull, kind, rfl⟩ | ⟨-, v, h, notNull, kind, rfl⟩ | ⟨-, h, kind, rfl⟩)
    · exact .onInterface h
    · exact .noModel h
    · obtain ⟨front, a, back, split, known, unknown, rfl⟩ := (unknown?_eq_some_iff _).mp h
      exact .unknownArgument front a back split known unknown
    · exact .noExpression h
    · exact .expressionKind v h kind
    · exact .flagKind "foreach" (by simp) v h notNull kind
    · exact .flagKind "always" (by simp) v h notNull kind
    · exact .notAList h kind

/-- Two faults of a usage with the same rank are the same fault. -/
theorem usageFault_unique {r q : Reason} (hr : UsageFault settings t f d r)
    (hq : UsageFault settings t f d q) (same : rank r = rank q) : r = q := by
  have badFlag {name : String} (hr : BadFlag d name r) (hq : BadFlag d name q) : r = q := by
    obtain ⟨v, hv, -, -, rfl⟩ := hr
    obtain ⟨w, hw, -, -, rfl⟩ := hq
    rw [Option.some.inj (hv.symm.trans hw)]
  rw [usageFault_iff] at hr hq
  rcases hr with ⟨i, -, hr⟩ | ⟨i, -, hr⟩ | ⟨i, m, hm, hr⟩ | ⟨i, hr⟩ | ⟨i, hr⟩ | ⟨i, hr⟩ |
      ⟨i, -, -, hr⟩ <;>
    rcases hq with ⟨j, -, hq⟩ | ⟨j, -, hq⟩ | ⟨j, n, hn, hq⟩ | ⟨j, hq⟩ | ⟨j, hq⟩ | ⟨j, hq⟩ |
      ⟨j, -, -, hq⟩ <;>
    first
      | omega
      | exact hr.trans hq.symm
      | exact badFlag hr hq
      | skip
  · rw [hr, hq, Option.some.inj (hm.symm.trans hn)]
  · rcases hr with ⟨hv, hr⟩ | ⟨v, hv, -, hr⟩ <;> rcases hq with ⟨hw, hq⟩ | ⟨w, hw, -, hq⟩
    · rw [hr, hq]
    · simp [hv] at hw
    · simp [hv] at hw
    · rw [hr, hq, Option.some.inj (hv.symm.trans hw)]

theorem readExpression_error {s : ArgumentFault} (h : Arguments.readExpression d = .error s) :
    BadExpression d (.arguments s) := by
  unfold Arguments.readExpression at h
  split at h
  · cases h
  · next v notString hv =>
    cases h
    exact .inr ⟨v, hv, notString, rfl⟩
  · next hv =>
    cases h
    exact .inl ⟨hv, rfl⟩

theorem readExpression_ok {s : String} (h : Arguments.readExpression d = .ok s) (r : Reason) :
    ¬BadExpression d r := by
  unfold Arguments.readExpression at h
  split at h
  · next v hv =>
    rintro (⟨hn, -⟩ | ⟨w, hw, kind, -⟩)
    · simp [hv] at hn
    · exact kind v (Option.some.inj (hw.symm.trans hv))
  · cases h
  · cases h

theorem readFlag_error {name : String} {s : ArgumentFault}
    (h : Arguments.readFlag d name = .error s) : BadFlag d name (.arguments s) := by
  unfold Arguments.readFlag at h
  split at h
  · cases h
  · cases h
  · cases h
  · next v notNull notBool hv =>
    cases h
    exact ⟨v, hv, notNull, notBool, rfl⟩

theorem readFlag_ok {name : String} {b : Bool} (h : Arguments.readFlag d name = .ok b) :
    (∀ r, ¬BadFlag d name r) ∧ (d.argument? name = some (.bool true) ↔ b = true) := by
  unfold Arguments.readFlag at h
  split at h
  · next hn =>
    cases h
    exact ⟨fun r ⟨v, hv, _⟩ => by simp [hn] at hv, by simp [hn]⟩
  · next hn =>
    cases h
    refine ⟨fun r ⟨v, hv, notNull, _⟩ => notNull (Option.some.inj (hv.symm.trans hn)), by simp [hn]⟩
  · next hc =>
    cases h
    refine ⟨fun r ⟨v, hv, _, kind, _⟩ => kind b (Option.some.inj (hv.symm.trans hc)), by simp [hc]⟩
  · cases h

/-- Every fault of the usage has at least this rank. -/
def FaultsFrom (settings : Settings) (t : TypeDefinition) (f : Field) (d : Directive) (n : Nat) :
    Prop :=
  ∀ r, UsageFault settings t f d r → n ≤ rank r

/-- Where no fault has the least rank that is left, all of them have a higher one. -/
theorem faultsFrom_succ {n : Nat} (before : FaultsFrom settings t f d n)
    (none : ∀ r, UsageFault settings t f d r → rank r ≠ n) : FaultsFrom settings t f d (n + 1) := by
  intro r h
  have := before r h
  have := none r h
  omega

theorem FaultsFrom.least {n : Nat} (before : FaultsFrom settings t f d n) {r : Reason}
    (fault : UsageFault settings t f d r) (same : rank r = n) :
    UsageFault settings t f d r ∧ FaultsFrom settings t f d (rank r) := by
  subst same
  exact ⟨fault, before⟩

theorem rank_badExpression {r : Reason} (h : BadExpression d r) : rank r = 4 := by
  rcases h with ⟨-, rfl⟩ | ⟨v, -, -, rfl⟩ <;> simp [rank]

theorem rank_badFlag {name : String} {r : Reason} (h : BadFlag d name r)
    (flag : name ≠ "expression") : rank r = if name = "foreach" then 5 else 6 := by
  obtain ⟨v, -, -, -, rfl⟩ := h
  simp [rank, flag]

/-- Reading the arguments finds the least fault in them. -/
theorem read_faults (before : FaultsFrom settings t f d 3) :
    match Arguments.read d with
    | .error s => UsageFault settings t f d (.arguments s) ∧
        FaultsFrom settings t f d (rank (.arguments s))
    | .ok a => FaultsFrom settings t f d 7 ∧
        (d.argument? "foreach" = some (.bool true) ↔ a.foreach = true) := by
  unfold Arguments.read
  cases hu : Arguments.unknown? d with
  | some name => exact ⟨(usageFault_iff _).mpr (by simp [rank, hu]), before⟩
  | none =>
    have four : FaultsFrom settings t f d 4 := by
      refine faultsFrom_succ before fun r h hr => ?_
      rw [usageFault_iff] at h
      simp [hr, hu] at h
    cases he : Arguments.readExpression d with
    | error s =>
      have bad := readExpression_error he
      have hr := rank_badExpression bad
      exact four.least ((usageFault_iff _).mpr (by simp [hr, bad])) hr
    | ok expression =>
      have five : FaultsFrom settings t f d 5 := by
        refine faultsFrom_succ four fun r h hr => ?_
        rw [usageFault_iff] at h
        simp [hr, readExpression_ok he] at h
      cases hf : Arguments.readFlag d "foreach" with
      | error s =>
        have bad := readFlag_error hf
        have hr : rank (.arguments s) = 5 := rank_badFlag bad (by simp)
        exact five.least ((usageFault_iff _).mpr (by simp [hr, bad])) hr
      | ok foreach =>
        have six : FaultsFrom settings t f d 6 := by
          refine faultsFrom_succ five fun r h hr => ?_
          rw [usageFault_iff] at h
          simp [hr, (readFlag_ok hf).1] at h
        cases ha : Arguments.readFlag d "always" with
        | error s =>
          have bad := readFlag_error ha
          have hr : rank (.arguments s) = 6 := rank_badFlag bad (by simp)
          exact six.least ((usageFault_iff _).mpr (by simp [hr, bad])) hr
        | ok always =>
          have seven : FaultsFrom settings t f d 7 := by
            refine faultsFrom_succ six fun r h hr => ?_
            rw [usageFault_iff] at h
            simp [hr, (readFlag_ok ha).1] at h
          exact ⟨seven, (readFlag_ok hf).2⟩

/-- Where nothing but the type of the field is left to be wrong, a list type leaves no fault. -/
theorem not_usageFault_of_type (seven : FaultsFrom settings t f d 7)
    (fits : ¬(d.argument? "foreach" = some (.bool true) ∧ ¬IsListType f.type)) (r : Reason) :
    ¬UsageFault settings t f d r := by
  intro h
  have least := seven r h
  rw [usageFault_iff] at h
  rcases h with h | h | h | h | h | h | ⟨-, on, notList, -⟩
  · omega
  · omega
  · omega
  · omega
  · omega
  · omega
  · exact fits ⟨on, notList⟩

/-- Checking a usage finds its least fault. -/
theorem check_faults (named : d.name = settings.directiveName) :
    match check settings t f d with
    | .error e => ∃ r, e = refusal settings t f r ∧ UsageFault settings t f d r ∧
        FaultsFrom settings t f d (rank r)
    | .ok _ => ∀ r, ¬UsageFault settings t f d r := by
  have one : FaultsFrom settings t f d 1 := by
    intro r h
    rw [usageFault_iff] at h
    omega
  unfold check
  by_cases place : t.isInterface = true
  · rw [if_pos place]
    refine ⟨.onInterface, rfl, .onInterface ?_, one⟩
    simpa [TypeDefinition.isInterface] using place
  rw [if_neg place]
  have two : FaultsFrom settings t f d 2 := by
    refine faultsFrom_succ one fun r h hr => ?_
    rw [usageFault_iff] at h
    simp only [TypeDefinition.isInterface, beq_iff_eq] at place
    simp [hr, place] at h
  have model : (t.directive? settings.modelDirective).isNone = true ↔
      ∀ m ∈ t.directives, m.name ≠ settings.modelDirective := by
    simp [TypeDefinition.directive?, findDirective?]
  by_cases absent : (t.directive? settings.modelDirective).isNone = true
  · rw [if_pos absent]
    exact ⟨.noModel settings.modelDirective, rfl, .noModel (model.mp absent), two⟩
  rw [if_neg absent]
  have three : FaultsFrom settings t f d 3 := by
    refine faultsFrom_succ two fun r h hr => ?_
    rw [usageFault_iff] at h
    have none : ¬∀ m ∈ t.directives, m.name ≠ settings.modelDirective := mt model.mpr absent
    rcases h with ⟨i, _⟩ | ⟨-, h, -⟩ | h
    · omega
    · exact none h
    · omega
  have read := read_faults three
  cases hr : Arguments.read d with
  | error s =>
    rw [hr] at read
    exact ⟨.arguments s, by rw [named]; rfl, read⟩
  | ok a =>
    rw [hr] at read
    obtain ⟨seven, foreach⟩ := read
    by_cases kind : a.foreach = true ∧ ¬f.type.isList = true
    · have notList : ¬IsListType f.type := by rw [← isList_iff]; exact kind.2
      dsimp only
      rw [if_pos kind]
      exact ⟨.notAList f.type, rfl, .notAList (foreach.mpr kind.1) notList, seven⟩
    · dsimp only
      rw [if_neg kind]
      rw [← foreach, isList_iff] at kind
      exact not_usageFault_of_type seven kind

end Usage

end TransformDirective.Usage
