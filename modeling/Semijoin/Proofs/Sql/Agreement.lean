import Semijoin.Proofs.Access.Outcome
import Semijoin.Proofs.Sql.Operators
import Semijoin.Proofs.Where.Selection
import Semijoin.Sql.Store

/-!
# The database and memory select the same rows

A where compiles to a condition of the same tree: groups to groups, and every condition on a field to the tests
of its operators. If each test mirrors its operator, the condition as a whole is read as the where is evaluated
in memory. So the two select the same rows as long as operators are positive. Under negated ones, rows of which
the condition is unknown are selected in memory and not by the database.
-/

namespace Semijoin.Sql
set_option autoImplicit false

/-- A stored row as a row in memory. -/
def Row.toValue (row : Row) : Value := .ofFields (row.map fun c => (c.1, .scalar c.2))

section Compile

variable [Attributes]

theorem Row.field_toValue (row : Row) (name : String) :
    row.toValue.field (.text name) = .ok (.scalar (row.get name)) := by
  rw [Row.toValue, Value.ofFields, Value.field_text rfl]
  congr 1
  induction row with
  | nil => rfl
  | cons c rest ih =>
    obtain ⟨k, x⟩ := c
    simp only [Value.column, List.map_cons, Entries.find?_cons, Scalar.same_text] at ih ⊢
    by_cases here : k = name
    · subst here
      simp [Row.get]
    · have missed : (Scalar.text k == .text name) = false := by simp [here]
      have passed : (name == k) = false := by simp [Ne.symm here]
      rw [missed, if_neg Bool.false_ne_true, ih, Row.get, Row.get, List.lookup_cons, passed]

/-- The entries of a where that is built from groups and from conditions on columns with allowed operators. -/
inductive Built (columns : List String) (allowed : Operator → Value → Prop) : List (Scalar × Value) → Prop where
  | nil : Built columns allowed []
  | conj {members : List (List (Scalar × Value))} {rest : List (Scalar × Value)}
      (each : ∀ es ∈ members, Built columns allowed es) (later : Built columns allowed rest) :
      Built columns allowed ((.text "and", .list (members.map .map)) :: rest)
  | disj {members : List (List (Scalar × Value))} {rest : List (Scalar × Value)}
      (each : ∀ es ∈ members, Built columns allowed es) (later : Built columns allowed rest) :
      Built columns allowed ((.text "or", .list (members.map .map)) :: rest)
  | field {name : String} {condition : Value} {rest : List (Scalar × Value)} (declared : name ∈ columns)
      (plain : name ≠ "and" ∧ name ≠ "or") (each : ∀ c ∈ Operator.conditions condition, allowed c.1 c.2)
      (later : Built columns allowed rest) : Built columns allowed ((.text name, condition) :: rest)

/-- Parts stand for the entries of a where: they are compiled from them, and decide like them on the rows with
values of a kind in the columns, when unknown counts as given. -/
structure Stands (unknown : Bool) (held : Scalar → Prop) (entity : String) (columns : List String)
    (entries : List (Scalar × Value)) (parts : List Expression) : Prop where
  compiled : compileEntries entity columns entries = .ok parts
  bindable : Expression.areBindable parts = true
  holds : ∀ row : Row, (∀ c ∈ columns, held (row.get c)) →
    Where.entriesHold row.toValue entries = .ok ((Expression.evalAll row parts).read unknown)

/-- Parts stand for the members of a group, whether all of them have to hold or some. -/
structure StandsEach (unknown : Bool) (held : Scalar → Prop) (entity : String) (columns : List String)
    (members : List (List (Scalar × Value))) (parts : List Expression) : Prop where
  compiled : compileAll entity columns (members.map .map) = .ok parts
  bindable : Expression.areBindable parts = true
  all : ∀ row : Row, (∀ c ∈ columns, held (row.get c)) →
    Where.allHold row.toValue (members.map .map) = .ok ((Expression.evalAll row parts).read unknown)
  any : ∀ row : Row, (∀ c ∈ columns, held (row.get c)) →
    Where.someHolds row.toValue (members.map .map) = .ok ((Expression.evalAny row parts).read unknown)

variable {u : Bool} {held : Scalar → Prop} {entity : String} {columns : List String}

theorem StandsEach.cons {es : List (Scalar × Value)} {members : List (List (Scalar × Value))}
    {parts later : List Expression} (first : Stands u held entity columns es parts)
    (others : StandsEach u held entity columns members later) :
    StandsEach u held entity columns (es :: members) (.all parts :: later) where
  compiled := by
    simp only [List.map_cons, compileAll, compileWhere, first.compiled, others.compiled]
    rfl
  bindable := by
    simp only [Expression.areBindable, Expression.isBindable, first.bindable, others.bindable, Bool.and_true]
  all := by
    intro row typed
    simp only [List.map_cons, Where.allHold, Where.holds, first.holds row typed, others.all row typed, bind,
      Except.bind]
    rw [Expression.evalAll, Truth.read_and, Expression.eval]
    cases (Expression.evalAll row parts).read u <;> rfl
  any := by
    intro row typed
    simp only [List.map_cons, Where.someHolds, Where.holds, first.holds row typed, others.any row typed, bind,
      Except.bind]
    rw [Expression.evalAny, Truth.read_or, Expression.eval]
    cases (Expression.evalAll row parts).read u <;> rfl

theorem exists_standsEach {members : List (List (Scalar × Value))}
    (h : ∀ es ∈ members, ∃ parts, Stands u held entity columns es parts) :
    ∃ parts, StandsEach u held entity columns members parts := by
  induction members with
  | nil => exact ⟨[], rfl, rfl, fun _ _ => rfl, fun _ _ => rfl⟩
  | cons es rest ih =>
    obtain ⟨parts, first⟩ := h es (by simp)
    obtain ⟨later, others⟩ := ih fun fs mem => h fs (by simp [mem])
    exact ⟨_, StandsEach.cons first others⟩

theorem Stands.conj {members : List (List (Scalar × Value))} {rest : List (Scalar × Value)}
    {parts later : List Expression} (group : StandsEach u held entity columns members parts)
    (stands : Stands u held entity columns rest later) :
    Stands u held entity columns ((.text "and", .list (members.map .map)) :: rest) (.all parts :: later) where
  compiled := by
    simp only [compileEntries, if_true, compileGroup, group.compiled, stands.compiled]
    rfl
  bindable := by
    simp only [Expression.areBindable, Expression.isBindable, group.bindable, stands.bindable, Bool.and_true]
  holds := by
    intro row typed
    simp only [Where.entriesHold, if_true, Where.groupHolds, group.all row typed, stands.holds row typed, bind,
      Except.bind]
    rw [Expression.evalAll, Truth.read_and, Expression.eval]
    cases (Expression.evalAll row parts).read u <;> rfl

theorem Stands.disj {members : List (List (Scalar × Value))} {rest : List (Scalar × Value)}
    {parts later : List Expression} (group : StandsEach u held entity columns members parts)
    (stands : Stands u held entity columns rest later) :
    Stands u held entity columns ((.text "or", .list (members.map .map)) :: rest) (.any parts :: later) where
  compiled := by
    have other : (Scalar.text "or" = .text "and") = False := by simp
    simp only [compileEntries, other, if_false, if_true, compileGroup, group.compiled, stands.compiled]
    rfl
  bindable := by
    simp only [Expression.areBindable, Expression.isBindable, group.bindable, stands.bindable, Bool.and_true]
  holds := by
    intro row typed
    have other : (Scalar.text "or" = .text "and") = False := by simp
    simp only [Where.entriesHold, other, if_false, if_true, Where.alternativeHolds, group.any row typed,
      stands.holds row typed, bind, Except.bind]
    rw [Expression.evalAll, Truth.read_and, Expression.eval]
    cases (Expression.evalAny row parts).read u <;> rfl

omit [Attributes] in
/-- The tests of one column decide like its conditions, if each mirrors its operator. -/
theorem exists_tests {name : String} {conditions : List (Operator × Value)}
    (h : ∀ c ∈ conditions, ∃ t, Mirrors u held c.1 c.2 t) :
    ∃ tests, conditions.mapM (fun c => do return Expression.test name (← testOf c.1 c.2)) = .ok tests ∧
      Expression.areBindable tests = true ∧ ∀ row : Row, held (row.get name) →
        Where.conditionsHold (.scalar (row.get name)) conditions = .ok ((Expression.evalAll row tests).read u) := by
  induction conditions with
  | nil => exact ⟨[], rfl, rfl, fun _ _ => rfl⟩
  | cons c rest ih =>
    obtain ⟨t, mirrors⟩ := h c (by simp)
    obtain ⟨tests, made, bindable, decide⟩ := ih fun d mem => h d (by simp [mem])
    refine ⟨.test name t :: tests, ?_, ?_, fun row typed => ?_⟩
    · rw [List.mapM_cons, made, mirrors.made]
      rfl
    · simp only [Expression.areBindable, Expression.isBindable, mirrors.bindable, bindable, Bool.and_true]
    · simp only [Where.conditionsHold, mirrors.decides _ typed, decide row typed, bind, Except.bind]
      rw [Expression.evalAll, Truth.read_and, Expression.eval]
      cases (t.eval (row.get name)).read u <;> rfl

theorem Stands.field {name : String} {condition : Value} {rest : List (Scalar × Value)} {later : List Expression}
    (declared : name ∈ columns) (plain : name ≠ "and" ∧ name ≠ "or")
    (mirrored : ∀ c ∈ Operator.conditions condition, ∃ t, Mirrors u held c.1 c.2 t)
    (stands : Stands u held entity columns rest later) :
    ∃ parts, Stands u held entity columns ((.text name, condition) :: rest) parts := by
  obtain ⟨tests, made, bindable, decide⟩ := exists_tests mirrored
  have and' : (Scalar.text name = .text "and") = False := by simp [plain.1]
  have or' : (Scalar.text name = .text "or") = False := by simp [plain.2]
  have column : columns.contains (Scalar.text name).shown = true := List.contains_iff_mem.2 declared
  refine ⟨tests ++ later, ?_, ?_, fun row typed => ?_⟩
  · simp only [compileEntries, and', or', if_false, fieldTests, column, if_true, stands.compiled]
    rw [show (Scalar.text name).shown = name from rfl, made]
    rfl
  · rw [Expression.areBindable_append, bindable, stands.bindable]
    rfl
  · simp only [Where.entriesHold, and', or', if_false, Where.fieldHolds, row.field_toValue,
      decide row (typed _ declared), stands.holds row typed, bind, Except.bind]
    rw [Expression.evalAll_read, Expression.evalAll_read, Expression.evalAll_read, List.all_append]
    cases tests.all fun e => (e.eval row).read u <;> rfl

/-- If every allowed operator is mirrored by a test, parts stand for every where that is built with them. -/
theorem Built.exists_stands {allowed : Operator → Value → Prop} {entries : List (Scalar × Value)}
    (built : Built columns allowed entries)
    (mirrored : ∀ op operand, allowed op operand → ∃ t, Mirrors u held op operand t) :
    ∃ parts, Stands u held entity columns entries parts := by
  induction built with
  | nil => exact ⟨[], rfl, rfl, fun _ _ => rfl⟩
  | conj _ _ each later =>
    obtain ⟨parts, group⟩ := exists_standsEach each
    obtain ⟨others, stands⟩ := later
    exact ⟨_, stands.conj group⟩
  | disj _ _ each later =>
    obtain ⟨parts, group⟩ := exists_standsEach each
    obtain ⟨others, stands⟩ := later
    exact ⟨_, stands.disj group⟩
  | field declared plain each _ later =>
    obtain ⟨others, stands⟩ := later
    exact stands.field declared plain fun c mem => mirrored c.1 c.2 (each c mem)

theorem Stands.compileWhere {entries : List (Scalar × Value)} {parts : List Expression}
    (stands : Stands u held entity columns entries parts) :
    compileWhere entity columns (.map entries) = .ok (.all parts) := by
  rw [Sql.compileWhere, stands.compiled]
  rfl

theorem Stands.holds_where {entries : List (Scalar × Value)} {parts : List Expression}
    (stands : Stands u held entity columns entries parts) {row : Row} (typed : ∀ c ∈ columns, held (row.get c)) :
    Where.holds row.toValue (.map entries) = .ok (((Expression.all parts).eval row).read u) := by
  rw [Where.holds, Expression.eval]
  exact stands.holds row typed

/-- A where of positive operators compiles, and its condition selects the rows that it holds of in memory. -/
theorem compileWhere_positive (entity : String) {columns : List String} {entries : List (Scalar × Value)}
    (built : Built columns Positive entries) :
    ∃ e, compileWhere entity columns (.map entries) = .ok e ∧
      ∀ row : Row, (∀ c ∈ columns, Cell (row.get c)) →
        Where.holds row.toValue (.map entries) = .ok (e.eval row).selects := by
  obtain ⟨parts, stands⟩ : ∃ parts, Stands false Cell entity columns entries parts :=
    built.exists_stands fun _ _ => Positive.mirrors
  refine ⟨.all parts, stands.compileWhere, fun row typed => ?_⟩
  rw [Truth.selects_eq_read]
  exact stands.holds_where typed

end Compile

/-- Grades from 3 up to 9. -/
def graded : List (Scalar × Value) := [(.text "grade", .ofFields [("gte", .int 3), ("lt", .int 9)])]

/-- No grade, at one of two levels. -/
def ungraded : List (Scalar × Value) :=
  [(.text "grade", .null), (.text "level", .ofFields [("in", .list ([4, 6].map .int))])]

/-- A group of the two. -/
def admitted : List (Scalar × Value) := [(.text "or", .list ([graded, ungraded].map .map))]

theorem built_admitted : Built ["grade", "level"] Positive admitted := by
  have first : Built ["grade", "level"] Positive graded := by
    refine .field (by decide) (by decide) ?_ .nil
    show ∀ c ∈ [(Operator.gte, Value.int 3), (.lt, .int 9)], Positive c.1 c.2
    exact List.forall_mem_cons.2 ⟨.gte 3, List.forall_mem_singleton.2 (.lt 9)⟩
  have second : Built ["grade", "level"] Positive ungraded := by
    refine .field (by decide) (by decide) ?_ (.field (by decide) (by decide) ?_ .nil)
    · exact List.forall_mem_singleton.2 .eqNull
    · show ∀ c ∈ [(Operator.among, Value.list ([4, 6].map .int))], Positive c.1 c.2
      exact List.forall_mem_singleton.2 (.among [4, 6])
  exact .disj (List.forall_mem_cons.2 ⟨first, List.forall_mem_singleton.2 second⟩) .nil

theorem compileWhere_positive_admitted :
    ∃ e, compileWhere "Pupil" ["grade", "level"] (.map admitted) = .ok e ∧
      (e.eval [("grade", .int 5), ("level", .null)]).selects = true ∧
      (e.eval [("grade", .null), ("level", .int 6)]).selects = true ∧
      (e.eval [("grade", .null), ("level", .null)]).selects = false := by
  obtain ⟨e, compiled, agrees⟩ := compileWhere_positive "Pupil" built_admitted
  have inMemory (g l : Scalar) (grade : Cell g) (level : Cell l) : (e.eval [("grade", g), ("level", l)]).selects =
      Where.accepts (.map admitted) (Row.toValue [("grade", g), ("level", l)]) := by
    refine (Where.accepts_of_holds (agrees _ ?_)).symm
    exact List.forall_mem_cons.2 ⟨grade, List.forall_mem_singleton.2 level⟩
  refine ⟨e, compiled, ?_, ?_, ?_⟩
  · rw [inMemory _ _ (.int 5) .null]
    decide +kernel
  · rw [inMemory _ _ .null (.int 6)]
    decide +kernel
  · rw [inMemory _ _ .null .null]
    decide +kernel

section Negated

variable [Attributes] {entity : String} {columns : List String}

/-- On a row without nulls a condition of negated operators is known: there its parts stand for the where when
unknown counts as no, too. -/
theorem Stands.null_of_unknown {entries : List (Scalar × Value)} {parts : List Expression}
    (stands : Stands true Cell entity columns entries parts) (built : Built columns Negated entries) {row : Row}
    (typed : ∀ c ∈ columns, Cell (row.get c)) (unknown : (Expression.all parts).eval row = .unknown) :
    ∃ c ∈ columns, row.get c = .null := by
  by_contra full
  have present : ∀ c ∈ columns, row.get c ≠ .null := fun c mem null => full ⟨c, mem, null⟩
  obtain ⟨parts', stands'⟩ : ∃ parts, Stands false (fun x => Cell x ∧ x ≠ .null) entity columns entries parts :=
    built.exists_stands fun _ _ negated => negated.mirrors_present
  have same : parts' = parts := Except.ok.inj (stands'.compiled.symm.trans stands.compiled)
  subst same
  -- the same evaluation in memory, read with unknown as yes and with unknown as no
  have yes := stands.holds row typed
  have no := stands'.holds row fun c mem => ⟨typed c mem, present c mem⟩
  rw [Expression.eval] at unknown
  rw [no, unknown] at yes
  cases yes

/-- A where of negated operators compiles. In memory it holds of the rows that its condition selects and of
those of which the condition is unknown; these have a null in some column. -/
theorem compileWhere_negated (entity : String) {columns : List String} {entries : List (Scalar × Value)}
    (built : Built columns Negated entries) :
    ∃ e, compileWhere entity columns (.map entries) = .ok e ∧
      ∀ row : Row, (∀ c ∈ columns, Cell (row.get c)) →
        Where.holds row.toValue (.map entries) = .ok ((e.eval row).selects || e.eval row == .unknown) ∧
        (e.eval row = .unknown → ∃ c ∈ columns, row.get c = .null) := by
  obtain ⟨parts, stands⟩ : ∃ parts, Stands true Cell entity columns entries parts :=
    built.exists_stands fun _ _ negated => negated.mirrors_nullable
  refine ⟨.all parts, stands.compileWhere, fun row typed => ⟨?_, stands.null_of_unknown built typed⟩⟩
  rw [← Truth.read_true]
  exact stands.holds_where typed

end Negated

/-- A grade other than 5, or a level that is none of two. -/
def unlike : List (Scalar × Value) :=
  [(.text "or", .list ([[(.text "grade", .ofFields [("neq", .int 5)])],
    [(.text "level", .ofFields [("nin", .list ([4, 6].map .int))])]].map .map))]

theorem built_unlike : Built ["grade", "level"] Negated unlike := by
  refine .disj (List.forall_mem_cons.2 ⟨?_, List.forall_mem_singleton.2 ?_⟩) .nil
  · refine .field (by decide) (by decide) ?_ .nil
    show ∀ c ∈ [(Operator.neq, Value.int 5)], Negated c.1 c.2
    exact List.forall_mem_singleton.2 (.neq 5)
  · refine .field (by decide) (by decide) ?_ .nil
    show ∀ c ∈ [(Operator.notAmong, Value.list ([4, 6].map .int))], Negated c.1 c.2
    exact List.forall_mem_singleton.2 (.notAmong [4, 6])

theorem compileWhere_negated_unlike :
    ∃ e, compileWhere "Pupil" ["grade", "level"] (.map unlike) = .ok e ∧
      (e.eval [("grade", .int 7), ("level", .int 6)]).selects = true ∧
      (e.eval [("grade", .int 5), ("level", .int 6)]).selects = false := by
  obtain ⟨e, compiled, reads⟩ := compileWhere_negated "Pupil" built_unlike
  have settled (g l : Int) : (e.eval [("grade", .int g), ("level", .int l)]).selects =
      Where.accepts (.map unlike) (Row.toValue [("grade", .int g), ("level", .int l)]) := by
    obtain ⟨holds, missing⟩ := reads [("grade", .int g), ("level", .int l)]
      (List.forall_mem_cons.2 ⟨.int g, List.forall_mem_singleton.2 (.int l)⟩)
    have full : ∀ c ∈ ["grade", "level"], Row.get [("grade", .int g), ("level", .int l)] c ≠ .null :=
      List.forall_mem_cons.2 ⟨nofun, List.forall_mem_singleton.2 nofun⟩
    have known : e.eval [("grade", .int g), ("level", .int l)] ≠ .unknown := by
      intro unknown
      obtain ⟨c, mem, null⟩ := missing unknown
      exact full c mem null
    rw [Where.accepts_of_holds holds, beq_false_of_ne known, Bool.or_false]
  refine ⟨e, compiled, ?_, ?_⟩
  · rw [settled]
    decide +kernel
  · rw [settled]
    decide +kernel

/-- A null is other than every number in memory, and not selected as such by the database. -/
theorem null_selected_in_memory_only :
    Built ["grade", "level"] Negated unlike ∧ Cell .null ∧ Cell (.int 6) ∧
      Where.holds (Row.toValue [("grade", .null), ("level", .int 6)]) (.map unlike) = .ok true ∧
      ∃ e, compileWhere "Pupil" ["grade", "level"] (.map unlike) = .ok e ∧
        (e.eval [("grade", .null), ("level", .int 6)]).selects = false := by
  refine ⟨built_unlike, .null, .int 6, Where.accepts_iff.1 (by decide +kernel), ?_⟩
  refine ⟨.all [.any [.all [.test "grade" (.differs (.int 5))],
    .all [.test "level" (.notAmong ([4, 6].map .int))]]], rfl, ?_⟩
  decide +kernel

section Tables

variable [Attributes] {u : Bool} {held : Scalar → Prop} {entity : String} {columns : List String}
  {store : Store} {m : Model} {table : List Row} {entries : List (Scalar × Value)}

/-- Finding with a where that stands compiled keeps the rows that its condition selects. -/
theorem Stands.rows_eq {parts : List Expression} (stands : Stands u held m.name (m.columns.map (·.name)) entries parts)
    (stored : store.tables.lookup m.table = some table) :
    (conditionOf m (.map entries) >>= store.rows m) =
      .ok (table.filter fun row => ((Expression.all parts).eval row).selects) := by
  cases entries with
  | nil =>
    -- an empty where is not compiled at all: every row is kept, as its empty conjunction would
    have none : parts = [] := (Except.ok.inj stands.compiled).symm
    subst none
    have every : (table.filter fun row => ((Expression.all []).eval row).selects) = table :=
      List.filter_eq_self.2 fun _ _ => rfl
    rw [every]
    simp only [conditionOf, Value.truthy, List.isEmpty_nil, Bool.not_true, Bool.false_eq_true, if_false,
      bind, Except.bind, Store.rows, stored]
  | cons entry rest =>
    simp only [conditionOf, Value.truthy, List.isEmpty_cons, Bool.not_false, if_true, stands.compileWhere,
      bind, Except.bind, pure, Except.pure, Store.rows, stored, Expression.isBindable, stands.bindable]

/-- In memory the same where selects the rows of which the condition is read as yes. -/
theorem Stands.select_eq {parts : List Expression} (stands : Stands u held entity columns entries parts)
    (typed : ∀ row ∈ table, ∀ c ∈ columns, held (row.get c)) :
    Where.select (.map entries) (table.map Row.toValue) =
      .ok ((table.filter fun row => ((Expression.all parts).eval row).read u).map Row.toValue) := by
  have decided : ∀ row ∈ table, Where.holds row.toValue (.map entries) =
      .ok (((Expression.all parts).eval row).read u) := fun row mem => stands.holds_where (typed row mem)
  have decides : ∀ v ∈ table.map Row.toValue, Where.Decides (.map entries) v := by
    intro v mem
    obtain ⟨row, there, rfl⟩ := List.mem_map.1 mem
    exact ⟨_, decided row there⟩
  rw [Where.select_eq decides, List.filter_map]
  congr 2
  exact List.filter_congr fun row mem => Where.accepts_of_holds (decided row mem)

/-- With positive operators the rows that are found in a table of the database are those that are selected from
the same table in memory. -/
theorem Store.rows_positive (stored : store.tables.lookup m.table = some table)
    (typed : ∀ row ∈ table, ∀ c ∈ m.columns.map (·.name), Cell (row.get c))
    (built : Built (m.columns.map (·.name)) Positive entries) :
    ∃ found, (conditionOf m (.map entries) >>= store.rows m) = .ok found ∧
      Where.select (.map entries) (table.map Row.toValue) = .ok (found.map Row.toValue) := by
  obtain ⟨parts, stands⟩ : ∃ parts, Stands false Cell m.name (m.columns.map (·.name)) entries parts :=
    built.exists_stands fun _ _ => Positive.mirrors
  refine ⟨_, stands.rows_eq stored, ?_⟩
  simp only [Truth.selects_eq_read]
  exact stands.select_eq typed

/-- With negated operators the rows that are found in the database are selected in memory, too, in the same order.
A row that is selected in memory only has a null in some column. -/
theorem Store.rows_negated (stored : store.tables.lookup m.table = some table)
    (typed : ∀ row ∈ table, ∀ c ∈ m.columns.map (·.name), Cell (row.get c))
    (built : Built (m.columns.map (·.name)) Negated entries) :
    ∃ found selected, (conditionOf m (.map entries) >>= store.rows m) = .ok found ∧
      Where.select (.map entries) (table.map Row.toValue) = .ok (selected.map Row.toValue) ∧
      found.Sublist selected ∧
      ∀ row ∈ selected, row ∉ found → ∃ c ∈ m.columns.map (·.name), row.get c = .null := by
  obtain ⟨parts, stands⟩ : ∃ parts, Stands true Cell m.name (m.columns.map (·.name)) entries parts :=
    built.exists_stands fun _ _ negated => negated.mirrors_nullable
  refine ⟨_, _, stands.rows_eq stored, stands.select_eq typed, ?_, fun row mem missed => ?_⟩
  · refine List.monotone_filter_right table fun row selected => ?_
    rw [Truth.read_true, selected, Bool.true_or]
  · obtain ⟨there, read⟩ := List.mem_filter.1 mem
    have unselected : ((Expression.all parts).eval row).selects = false :=
      Bool.eq_false_iff.2 fun selected => missed (List.mem_filter.2 ⟨there, selected⟩)
    rw [Truth.read_true, unselected, Bool.false_or] at read
    exact stands.null_of_unknown built (typed row there) (eq_of_beq read)

end Tables

end Semijoin.Sql
