import Semijoin.Proofs.Reversal.Collect
import Semijoin.Proofs.Reversal.Plan

/-!
# Reaching rows along hops and back

Rows reach one another along hops. Against hops whose relations back are converses the same rows reach one
another the other way round, so the ids collected from the furthest rows that match are the ids of exactly
the rows next to the root that lead to a match, and the root rows with one of them are those that do.
-/

namespace Semijoin
set_option autoImplicit false

variable {schema : Schema} {tables : Tables}

/-- A row leads to another along hops, from each row to a stored row that it is related to. -/
inductive Tables.Reaches (tables : Tables) : List Hop → Value → Value → Prop
  | here (row : Value) : Reaches tables [] row row
  | step {hop : Hop} {hops : List Hop} {row next last : Value} (stored : next ∈ tables.rows hop.target.name)
      (linked : hop.links row next = true) (more : Reaches tables hops next last) :
      Reaches tables (hop :: hops) row last

namespace Tables

theorem mem_gather_iff {hops : List Hop} {row last : Value} :
    last ∈ tables.gather hops row ↔ tables.Reaches hops row last := by
  induction hops generalizing row with
  | nil =>
    rw [gather, List.mem_singleton]
    constructor
    · rintro rfl
      exact .here _
    · intro reaches
      cases reaches
      rfl
  | cons hop rest ih =>
    rw [gather, List.mem_flatMap]
    constructor
    · rintro ⟨next, mem, later⟩
      obtain ⟨stored, linked⟩ := List.mem_filter.1 mem
      exact .step stored linked (ih.1 later)
    · intro reaches
      cases reaches with
      | step stored linked more => exact ⟨_, List.mem_filter.2 ⟨stored, linked⟩, ih.2 more⟩

namespace Reaches

theorem append {hops hops' : List Hop} {row next last : Value} (h : tables.Reaches hops row next)
    (h' : tables.Reaches hops' next last) : tables.Reaches (hops ++ hops') row last := by
  induction h with
  | here row => exact h'
  | step stored linked _ ih => exact .step stored linked (ih h')

theorem of_append {hops hops' : List Hop} {row last : Value} (h : tables.Reaches (hops ++ hops') row last) :
    ∃ next, tables.Reaches hops row next ∧ tables.Reaches hops' next last := by
  induction hops generalizing row with
  | nil => exact ⟨row, .here row, h⟩
  | cons hop rest ih =>
    cases h with
    | step stored linked more =>
      obtain ⟨next, first, later⟩ := ih more
      exact ⟨next, .step stored linked first, later⟩

/-- A walk ends at a stored row if it starts at one. -/
theorem stored {e e' : Entity} {path : List String} {hops : List Hop} (walk : schema.Walks e path hops e')
    {row last : Value} (reaches : tables.Reaches hops row last) (start : row ∈ tables.rows e.name) :
    last ∈ tables.rows e'.name := by
  induction walk generalizing row with
  | done e => cases reaches; exact start
  | step _ _ ih =>
    cases reaches with
    | step stored _ more => exact ih more stored

end Reaches

end Tables

namespace Hop

/-- What is first declared back is a converse. -/
def Returns (hop : Hop) : Prop := ∃ r, hop.back? = some r ∧ hop.IsConverse r

namespace Returns

variable {hop : Hop}

theorem back?_eq (h : hop.Returns) : hop.back? = some hop.back := by
  obtain ⟨r, found, -⟩ := h
  rw [back_eq found, found]

theorem isConverse (h : hop.Returns) : hop.IsConverse hop.back := by
  obtain ⟨r, found, converse⟩ := h
  rwa [back_eq found]

theorem followed (h : hop.Returns) : hop.Followed := h.isConverse.kinds.imp And.left And.left

theorem reversed_followed (h : hop.Returns) : hop.reversed.Followed :=
  h.isConverse.kinds.symm.imp And.right And.right

/-- The hop against a hop compares the same columns. -/
theorem reversed_columns (h : hop.Returns) :
    hop.reversed.ownerColumn = hop.targetColumn ∧ hop.reversed.targetColumn = hop.ownerColumn := by
  have foreignKey := h.isConverse.foreignKey
  unfold ownerColumn targetColumn reversed
  rcases h.isConverse.kinds with ⟨kind, kind'⟩ | ⟨kind, kind'⟩ <;> simp [kind, kind', foreignKey]

/-- Rows are related against a hop as they are along it. -/
theorem reversed_links (h : hop.Returns) {row other : Value} (here : row.HoldsKey hop.ownerColumn)
    (there : other.HoldsKey hop.targetColumn) : hop.reversed.links other row = hop.links row other := by
  rw [links, links, h.reversed_columns.1, h.reversed_columns.2, here.column_eq, there.column_eq, Value.meets_comm]

end Returns

end Hop

theorem followed_of_retrace {hops : List Hop} (returns : ∀ hop ∈ hops, hop.Returns) :
    ∀ hop ∈ retrace hops, hop.Followed := by
  intro hop mem
  obtain ⟨there, mem', rfl⟩ := List.mem_map.1 mem
  exact (returns there (List.mem_reverse.1 mem')).reversed_followed

/-- Along a hop of a declared entity, its rows and those of its target hold keys in the columns compared. -/
theorem Schema.HopFrom.holdsKeys {e : Entity} {name : Value} {hop : Hop} (from' : schema.HopFrom e name hop)
    (keyed : tables.Keyed schema) (declared : e ∈ schema.entities) (followed : hop.Followed) :
    (∀ row ∈ tables.rows e.name, row.HoldsKey hop.ownerColumn) ∧
      ∀ row ∈ tables.rows hop.target.name, row.HoldsKey hop.targetColumn :=
  ⟨fun row mem => (keyed e declared row mem).keys _ from'.ownerColumn_mem,
    fun row mem => (keyed _ (find?_eq_some from'.target).1 row mem).keys _
      (from'.targetColumn_mem declared followed.kind_ne)⟩

/-- **Walking back reaches the rows that lead here.** -/
theorem reaches_retrace_iff (sound : schema.Sound) (keyed : tables.Keyed schema) {e e' : Entity} {path : List String}
    {hops : List Hop} (walk : schema.Walks e path hops e') (declared : schema.find? e.name = some e)
    (returns : ∀ hop ∈ hops, hop.Returns) {row last : Value} (start : row ∈ tables.rows e.name)
    (stored : last ∈ tables.rows e'.name) :
    tables.Reaches (retrace hops) last row ↔ tables.Reaches hops row last := by
  induction walk generalizing row with
  | done e =>
    constructor <;> intro reaches <;> cases reaches <;> exact .here _
  | @step e e' name path hop hops here more ih =>
    have from' := Schema.hop?_eq_some here
    obtain ⟨returnsHere, returnsLater⟩ := List.forall_mem_cons.1 returns
    obtain ⟨keysHere, keysThere⟩ := from'.holdsKeys keyed (Schema.find?_eq_some declared).1 returnsHere.followed
    have backwards : schema.Walks e' (backNames hops) (retrace hops) hop.target :=
      retrace_walks sound more from'.target_found fun h mem => (returnsLater h mem).back?_eq
    have split : retrace (hop :: hops) = retrace hops ++ [hop.reversed] := by simp [retrace]
    rw [split]
    constructor
    · intro reaches
      obtain ⟨next, first, last⟩ := reaches.of_append
      cases last with
      | step _ linked done =>
        cases done
        have mem := first.stored backwards stored
        rw [returnsHere.reversed_links (keysHere _ start) (keysThere _ mem)] at linked
        exact .step mem linked ((ih from'.target_found returnsLater mem stored).1 first)
    · intro reaches
      cases reaches with
      | step mem linked later =>
        rw [← returnsHere.reversed_links (keysHere _ start) (keysThere _ mem)] at linked
        have start' : row ∈ tables.rows hop.owner.name := by rwa [from'.owner_eq]
        exact ((ih from'.target_found returnsLater mem stored).2 later).append (.step start' linked (.here row))

/-- Where the first relation back is a converse, the column collected is the one that the first hop compares. -/
theorem Hop.idColumn_eq {hop : Hop} (followed : hop.Followed) (returns : hop.relation.kind = .hasMany → hop.Returns) :
    hop.idColumn = hop.targetColumn := by
  unfold idColumn targetColumn
  rcases followed with many | one
  · simp [many, (returns many).isConverse.foreignKey]
  · simp [one]

variable [Attributes]

/-- The rows next to the root that lead to a match. -/
def Tables.adjacent (tables : Tables) (hops : List Hop) (furthest : String) (condition : Value) : List Value :=
  ((tables.rows furthest).filter (Where.accepts condition)).flatMap (tables.gather (retrace hops))

theorem mem_adjacent_iff (sound : schema.Sound) (keyed : tables.Keyed schema) {e e' : Entity} {path : List String}
    {hops : List Hop} (walk : schema.Walks e path hops e') (declared : schema.find? e.name = some e)
    (returns : ∀ hop ∈ hops, hop.Returns) (condition : Value) {next : Value} :
    next ∈ tables.adjacent hops e'.name condition ↔
      next ∈ tables.rows e.name ∧ ∃ last, tables.Reaches hops next last ∧ Where.holds last condition = .ok true := by
  have backwards : schema.Walks e' (backNames hops) (retrace hops) e :=
    retrace_walks sound walk declared fun h mem => (returns h mem).back?_eq
  rw [Tables.adjacent, List.mem_flatMap]
  constructor
  · rintro ⟨last, mem, gathered⟩
    obtain ⟨stored, accepted⟩ := List.mem_filter.1 mem
    have back := Tables.mem_gather_iff.1 gathered
    have start := back.stored backwards stored
    exact ⟨start, last, (reaches_retrace_iff sound keyed walk declared returns start stored).1 back,
      Where.accepts_iff.1 accepted⟩
  · rintro ⟨start, last, reaches, holds⟩
    -- the where is asked of stored rows only, and the end of a chain is one
    have stored := reaches.stored walk start
    exact ⟨last, List.mem_filter.2 ⟨stored, Where.accepts_iff.2 holds⟩, Tables.mem_gather_iff.2
      ((reaches_retrace_iff sound keyed walk declared returns start stored).2 reaches)⟩

/-- A row of the root has the key of one of those rows exactly if it leads to a match itself. -/
theorem isIn_adjacent_iff (sound : schema.Sound) (keyed : tables.Keyed schema) {root e' : Entity} {path : List String}
    {first : Hop} {hops : List Hop} (walk : schema.Walks root path (first :: hops) e')
    (declared : schema.find? root.name = some root) (followed : first.Followed) (returns : ∀ hop ∈ hops, hop.Returns)
    (condition : Value) {row : Value} (start : row ∈ tables.rows root.name) :
    (row.columnKey first.ownerColumn).isIn
        (heldKeys first.targetColumn (tables.adjacent hops e'.name condition)) = true ↔
      ∃ last, tables.Reaches (first :: hops) row last ∧ Where.holds last condition = .ok true := by
  cases walk with
  | step here more =>
    have from' := Schema.hop?_eq_some here
    obtain ⟨keysHere, keysThere⟩ := from'.holdsKeys keyed (Schema.find?_eq_some declared).1 followed
    have adjacent (next : Value) : next ∈ tables.adjacent hops e'.name condition ↔
        next ∈ tables.rows first.target.name ∧
          ∃ last, tables.Reaches hops next last ∧ Where.holds last condition = .ok true :=
      mem_adjacent_iff sound keyed more from'.target_found returns condition
    have linked {next : Value} (stored : next ∈ tables.rows first.target.name) : first.links row next =
        (next.columnKey first.targetColumn != .null &&
          (next.columnKey first.targetColumn).same (row.columnKey first.ownerColumn)) := by
      rw [Hop.links, (keysHere row start).column_eq, (keysThere next stored).column_eq, Value.meets_comm,
        Value.meets_scalar]
    rw [Scalar.isIn_iff]
    constructor
    · rintro ⟨m, mem, same⟩
      obtain ⟨held, set⟩ := List.mem_filter.1 mem
      obtain ⟨next, mem', rfl⟩ := List.mem_map.1 held
      obtain ⟨stored, last, reaches, holds⟩ := (adjacent next).1 mem'
      exact ⟨last, .step stored (by rw [linked stored, set, same, Bool.and_self]) reaches, holds⟩
    · rintro ⟨last, reaches, holds⟩
      cases reaches with
      | step stored link later =>
        rw [linked stored, Bool.and_eq_true] at link
        have held := (adjacent _).2 ⟨stored, last, later, holds⟩
        exact ⟨_, List.mem_filter.2 ⟨List.mem_map.2 ⟨_, held, rfl⟩, link.1⟩, link.2⟩

end Semijoin
