import Semijoin.Access.Remote
import Semijoin.Proofs.Access.Outcome
import Semijoin.Proofs.Value.Document

/-!
# What a service answers

A find that is sent to a service comes to one of three things. A good answer whose body is a find response gives the
items of the response. An answer with another status, or none at all, is a failed fetch of the entity. But what is wrong
with the body of a good answer is no failed fetch: a body that can not be read is an error of the reader, and one of
another shape a report of its places. `received_outcome` tells these apart for every delivery, whatever bytes arrived.
-/

namespace Semijoin
set_option autoImplicit false

namespace Value

/-- A value is a find response with these items, each a mapping. -/
inductive IsFindResponse (v : Value) : List Value → Prop
  | nothing (mapping : v.isMap = true) (absent : v.get? "items" = none) : IsFindResponse v []
  | items {rows : List Value} (given : v.get? "items" = some (.list rows)) (maps : ∀ row ∈ rows, row.isMap = true) :
    IsFindResponse v rows

/-- What keeps a value from being a find response, and where. -/
inductive OffendsResponse (v : Value) : Issue → Prop
  | whole (other : v.isMap = false) : OffendsResponse v ⟨[], .notModel⟩
  | items {given : Value} (held : v.get? "items" = some given) (other : given.isList = false) :
    OffendsResponse v ⟨[.key "items"], .notList⟩
  | item {rows : List Value} {row : Value} {n : Nat} (held : v.get? "items" = some (.list rows))
      (at_ : rows[n]? = some row) (other : row.isMap = false) :
    OffendsResponse v ⟨[.key "items", .index n], .notMapping⟩

theorem IsFindResponse.maps {v : Value} {rows : List Value} (h : v.IsFindResponse rows) :
    ∀ row ∈ rows, row.isMap = true := by
  cases h with
  | nothing => simp
  | items _ maps => exact maps

theorem isMap_of_get? {v w : Value} {key : String} (h : v.get? key = some w) : v.isMap = true := by
  cases v with
  | map _ => rfl
  | _ => cases h

theorem isList_iff {v : Value} : v.isList = true ↔ ∃ rows, v = .list rows := by
  cases v <;> simp [isList]

end Value

namespace Shape

/-- Items are reported that are no mappings, each once at its index. -/
theorem mem_itemsIssuesFrom {rows : List Value} {index : Nat} {i : Issue} :
    i ∈ itemsIssuesFrom index rows ↔ ∃ n row, rows[n]? = some row ∧ row.isMap = false ∧
      i = ⟨[.key "items", .index (index + n)], .notMapping⟩ := by
  induction rows generalizing index with
  | nil => simp [itemsIssuesFrom]
  | cons v rest ih =>
    rw [itemsIssuesFrom, List.mem_append, ih]
    constructor
    · rintro (here | ⟨n, row, at_, other, rfl⟩)
      · by_cases mapping : v.isMap = true
        · simp [mapping] at here
        · rw [if_neg mapping, List.mem_singleton] at here
          exact ⟨0, v, rfl, by simpa using mapping, here⟩
      · exact ⟨n + 1, row, at_, other, by rw [Nat.add_assoc, Nat.add_comm 1 n]⟩
    · rintro ⟨n, row, at_, other, rfl⟩
      cases n with
      | zero =>
        cases at_
        exact .inl (by simp [other])
      | succ n => exact .inr ⟨n, row, at_, other, by rw [Nat.add_assoc, Nat.add_comm 1 n]⟩

theorem nodup_itemsIssuesFrom (rows : List Value) (index : Nat) :
    ((itemsIssuesFrom index rows).map (·.place)).Nodup := by
  induction rows generalizing index with
  | nil => simp [itemsIssuesFrom]
  | cons v rest ih =>
    rw [itemsIssuesFrom]
    by_cases mapping : v.isMap = true
    · simpa [mapping] using ih (index + 1)
    · rw [if_neg mapping, List.singleton_append, List.map_cons, List.nodup_cons]
      refine ⟨fun mem => ?_, ih (index + 1)⟩
      obtain ⟨i, reported, eq⟩ := List.mem_map.1 mem
      obtain ⟨n, row, -, -, rfl⟩ := mem_itemsIssuesFrom.1 reported
      simp only [List.cons.injEq, Step.index.injEq, and_true, true_and] at eq
      omega

variable {v : Value}

/-- **The check of a find response reports what keeps a value from being one**, each place once. -/
theorem reports_findResponse (v : Value) :
    (∀ i, i ∈ findResponseIssues v ↔ v.OffendsResponse i) ∧ ((findResponseIssues v).map (·.place)).Nodup := by
  cases v with
  | map entries =>
    have mapping : (Value.map entries).isMap = true := rfl
    rw [findResponseIssues]
    split
    · next absent =>
      refine ⟨fun i => ⟨(nomatch ·), fun offends => ?_⟩, .nil⟩
      cases offends with
      | whole other => cases other
      | items held => cases absent.symm.trans held
      | item held => cases absent.symm.trans held
    · next rows given =>
      refine ⟨fun i => ?_, nodup_itemsIssuesFrom rows 0⟩
      rw [mem_itemsIssuesFrom]
      constructor
      · rintro ⟨n, row, at_, other, rfl⟩
        rw [Nat.zero_add]
        exact .item given at_ other
      · intro offends
        cases offends with
        | whole other => cases other
        | items held other =>
          cases given.symm.trans held
          cases other
        | item held at_ other =>
          cases given.symm.trans held
          exact ⟨_, _, at_, other, by rw [Nat.zero_add]⟩
    · next w notList given =>
      have other : w.isList = false := Bool.eq_false_iff.2 fun list => by
        obtain ⟨rows, rfl⟩ := Value.isList_iff.1 list
        exact notList rows rfl
      refine ⟨fun i => ?_, by simp⟩
      rw [List.mem_singleton]
      constructor
      · rintro rfl
        exact .items given other
      · intro offends
        cases offends with
        | whole other => cases other
        | items => rfl
        | item held =>
          cases given.symm.trans held
          exact absurd rfl (notList _)
  | _ =>
    refine ⟨fun i => ?_, by simp [findResponseIssues]⟩
    simp only [findResponseIssues, List.mem_singleton]
    constructor
    · rintro rfl
      exact .whole rfl
    · intro offends
      cases offends with
      | whole => rfl
      | items held => cases held
      | item held => cases held

/-- Nothing is reported of a find response, and its items are found. -/
theorem findResponseIssues_of_isFindResponse {rows : List Value} (h : v.IsFindResponse rows) :
    findResponseIssues v = [] ∧ responseItems v = rows := by
  have none : ∀ i, ¬ v.OffendsResponse i := by
    intro i offends
    cases offends with
    | whole other =>
      cases h with
      | nothing mapping => rw [other] at mapping; cases mapping
      | items given => rw [Value.isMap_of_get? given] at other; cases other
    | items held other =>
      cases h with
      | nothing _ absent => cases absent.symm.trans held
      | items given =>
        cases given.symm.trans held
        cases other
    | item held at_ other =>
      cases h with
      | nothing _ absent => cases absent.symm.trans held
      | items given maps =>
        cases given.symm.trans held
        rw [maps _ (List.mem_of_getElem? at_)] at other
        cases other
  refine ⟨List.eq_nil_iff_forall_not_mem.2 fun i mem => none i (((reports_findResponse v).1 i).1 mem), ?_⟩
  unfold responseItems
  cases h with
  | nothing _ absent => rw [absent]
  | items given => rw [given]

/-- A value of which nothing is reported is a find response. -/
theorem isFindResponse_of_findResponseIssues (h : findResponseIssues v = []) :
    v.IsFindResponse (responseItems v) := by
  have none : ∀ i, ¬ v.OffendsResponse i := fun i offends => by
    have mem := ((reports_findResponse v).1 i).2 offends
    rw [h] at mem
    cases mem
  have mapping : v.isMap = true := Bool.of_not_eq_false fun other => none _ (.whole other)
  unfold responseItems
  cases held : v.get? "items" with
  | none => exact .nothing mapping held
  | some given =>
    have list : given.isList = true := Bool.of_not_eq_false fun other => none _ (.items held other)
    obtain ⟨rows, rfl⟩ := Value.isList_iff.1 list
    refine .items held fun row mem => ?_
    obtain ⟨n, inside, rfl⟩ := List.mem_iff_getElem.1 mem
    exact Bool.of_not_eq_false fun other => none _ (.item held (List.getElem?_eq_getElem inside) other)

end Shape

namespace Delivery

/-- A delivery is an answer with a status, a body that is shown as a text, and what the body reads as. -/
inductive Answers : Delivery → Nat → String → Except Json.BytesFault Value → Prop
  | response (r : Response) : Answers (.response r) r.status r.body.shown r.body.read
  | raw (status : Nat) (bytes : List UInt8) :
    Answers (.raw status bytes) status (Text.Utf8.repair bytes) (Json.readBytes bytes)

/-- A good answer that is a find response brings its items. -/
inductive Brings (d : Delivery) (rows : List Value) : Prop
  | good {shown : String} {v : Value} (answers : d.Answers 200 shown (.ok v)) (response : v.IsFindResponse rows)

/-- An error of the transport, or an answer with another status, fails the fetch: with a text, a status, and the cause if
there is one. -/
inductive Fails : Delivery → String → Nat → Option Cause → Prop
  | lost (error text : String) : Fails (.lost error text) text 0 (some (.transport error text))
  | status {d : Delivery} {status : Nat} {shown : String} {read : Except Json.BytesFault Value}
      (answers : d.Answers status shown read) (bad : status ≠ 200) : Fails d shown status none

/-- What is wrong with the body of a good answer: it can not be read, or has another shape. -/
inductive Spoils (d : Delivery) : Cause → Prop
  | unreadable {shown : String} {f : Json.BytesFault} (answers : d.Answers 200 shown (.error f)) :
    Spoils d (.document f)
  | misshapen {shown : String} {v : Value} {issues : List Issue} (answers : d.Answers 200 shown (.ok v))
      (some_ : issues ≠ []) (reported : ∀ i, i ∈ issues ↔ v.OffendsResponse i) (once : (issues.map (·.place)).Nodup) :
    Spoils d (.shape .findResponse issues)

theorem answers_or_lost (d : Delivery) :
    (∃ status shown read, d.Answers status shown read) ∨ ∃ error text, d = .lost error text := by
  cases d with
  | response r => exact .inl ⟨_, _, _, .response r⟩
  | raw status bytes => exact .inl ⟨_, _, _, .raw status bytes⟩
  | lost error text => exact .inr ⟨error, text, rfl⟩

section Answers

variable {d : Delivery} {status status' : Nat} {shown shown' : String} {read read' : Except Json.BytesFault Value}

theorem Answers.unique (h : d.Answers status shown read) (h' : d.Answers status' shown' read') :
    status = status' ∧ shown = shown' ∧ read = read' := by
  cases h <;> cases h' <;> exact ⟨rfl, rfl, rfl⟩

theorem Answers.received_eq (h : d.Answers status shown read) (entity : String) :
    Remote.received entity d =
      if status = 200 then Remote.records read else .error (.accessFailed entity shown (some status) none) := by
  cases h <;> rfl

end Answers

end Delivery

namespace Remote

/-- What a good answer is read as has records exactly if it is a find response; otherwise the reader's fault or what is
wrong with the shape comes out as it is. -/
theorem records_outcome (read : Except Json.BytesFault Value) :
    (∃ v rows, read = .ok v ∧ v.IsFindResponse rows ∧ records read = .ok (.list rows)) ∨
    (∃ f, read = .error f ∧ records read = .error (.cause (.document f))) ∨
    ∃ v issues, read = .ok v ∧ issues ≠ [] ∧ (∀ i, i ∈ issues ↔ v.OffendsResponse i) ∧
      (issues.map (·.place)).Nodup ∧ records read = .error (.cause (.shape .findResponse issues)) := by
  cases read with
  | error f => exact .inr (.inl ⟨f, rfl, rfl⟩)
  | ok v =>
    obtain ⟨reported, once⟩ := Shape.reports_findResponse v
    cases issues : Shape.findResponseIssues v with
    | nil =>
      refine .inl ⟨v, _, rfl, Shape.isFindResponse_of_findResponseIssues issues, ?_⟩
      simp only [records, issues]
    | cons i more =>
      rw [issues] at reported once
      refine .inr (.inr ⟨v, _, rfl, List.cons_ne_nil i more, reported, once, ?_⟩)
      simp only [records, issues]

/-- **Every delivery brings records, fails the fetch, or is spoiled**, and only one of these; what spoils a good answer is
the error that comes out. -/
theorem received_outcome (entity : String) (d : Delivery) :
    (∃ rows, d.Brings rows ∧ received entity d = .ok (.list rows)) ∧ (∀ c, ¬ d.Spoils c) ∨
    (∃ text status cause, d.Fails text status cause ∧
      received entity d = .error (.accessFailed entity text (some status) cause)) ∧ (∀ c, ¬ d.Spoils c) ∨
    ∃ c, d.Spoils c ∧ received entity d = .error (.cause c) := by
  rcases d.answers_or_lost with ⟨status, shown, read, answers⟩ | ⟨error, text, rfl⟩
  · have eq := answers.received_eq entity
    by_cases good : status = 200
    · subst good
      rw [if_pos rfl] at eq
      rw [eq]
      rcases records_outcome read with
        ⟨v, rows, rfl, response, found⟩ | ⟨f, rfl, failed⟩ | ⟨v, issues, rfl, some_, reported, once, failed⟩
      · refine .inl ⟨⟨rows, .good answers response, found⟩, fun c spoils => ?_⟩
        cases spoils with
        | unreadable answers' => cases (answers.unique answers').2.2
        | @misshapen _ _ issues answers' some_ reported =>
          cases (answers.unique answers').2.2
          obtain ⟨i, mem⟩ := List.exists_mem_of_ne_nil issues some_
          have none := (Shape.findResponseIssues_of_isFindResponse response).1
          have offends := ((Shape.reports_findResponse v).1 i).2 ((reported i).1 mem)
          rw [none] at offends
          cases offends
      · exact .inr (.inr ⟨_, .unreadable answers, failed⟩)
      · exact .inr (.inr ⟨_, .misshapen answers some_ reported once, failed⟩)
    · rw [if_neg good] at eq
      refine .inr (.inl ⟨⟨shown, status, none, .status answers good, eq⟩, fun c spoils => ?_⟩)
      cases spoils with
      | unreadable answers' => exact good (answers.unique answers').1
      | misshapen answers' => exact good (answers.unique answers').1
  · refine .inr (.inl ⟨⟨text, 0, _, .lost error text, rfl⟩, fun c spoils => ?_⟩)
    cases spoils with
    | unreadable answers => cases answers
    | misshapen answers => cases answers

section Request

variable {entity : String} {condition include_ : Value}

theorem get?_request : (request entity condition include_).get? "entity" = some (.text entity) ∧
    (request entity condition include_).get? "where" = some condition ∧
      (request entity condition include_).get? "include" = some include_ := ⟨rfl, rfl, rfl⟩

/-- A request with a where and an include of the right kinds has no issues, wherever they would be placed. -/
theorem issues_request (asks : condition.isNull = true ∨ condition.isMap = true)
    (attaches : include_.isNull = true ∨ include_.isMap = true ∨ include_.isList = true ∨ include_.isText = true)
    (place : List Step) : Shape.findRequestIssues place (request entity condition include_) = [] := by
  obtain ⟨named, where_, included⟩ := @get?_request entity condition include_
  have text : (Value.text entity).isText = true := rfl
  have mapping : Shape.mappingIssues (place ++ [.key "where"]) (some condition) = [] := by
    rcases asks with null | map <;> simp [Shape.mappingIssues, *]
  have kinds : Shape.includeIssues (place ++ [.key "include"]) (some include_) = [] := by
    rcases attaches with null | map | list | text <;> simp [Shape.includeIssues, *]
  rw [Shape.findRequestIssues, named, where_, included, mapping, kinds]
  simp [text]

/-- Such a request can be sent if its numbers are finite. -/
theorem sendable_request (asks : condition.isNull = true ∨ condition.isMap = true)
    (attaches : include_.isNull = true ∨ include_.isMap = true ∨ include_.isList = true ∨ include_.isText = true)
    (strict : Json.isStrict condition = true ∧ Json.isStrict include_ = true) :
    unsendable? (request entity condition include_) = none := by
  have finite : Json.isStrict (request entity condition include_) = true := by
    simp only [request, Value.ofFields, List.map_cons, List.map_nil, Json.isStrict, Json.entriesStrict, strict]
    rfl
  rw [unsendable?, issues_request asks attaches []]
  simp [finite]

end Request

/-- A where and an include that a find may be asked with: documents of the kinds that a request holds, all of whose numbers
are finite. -/
structure Askable (condition include_ : Value) : Prop where
  documents : condition.isDocument = true ∧ include_.isDocument = true
  asks : condition.isNull = true ∨ condition.isMap = true
  attaches : include_.isNull = true ∨ include_.isMap = true ∨ include_.isList = true ∨ include_.isText = true
  strict : Json.isStrict condition = true ∧ Json.isStrict include_ = true

section Find

variable {σ : Type} {services : List (String × String)} {transport : Transport σ} {entity : String}
  {condition include_ : Value}

/-- An entity without a service is not asked for. -/
theorem find_unregistered (none_ : (services.lookup entity).filter (· != "") = none) (s : σ) :
    ((access services transport).find entity condition include_).step s =
      (.error (.accessFailed entity "No service registered" none none), s) := by
  unfold access
  simp only [none_]
  rfl

/-- A find is one request, and comes to what is received for it. -/
theorem find_registered {service : String} (registered : (services.lookup entity).filter (· != "") = some service)
    (askable : Askable condition include_) {s s' : σ} {d : Delivery}
    (sent : (transport.send (address service) (request entity condition include_)).run s = (d, s')) :
    ((access services transport).find entity condition include_).step s = (received entity d, s') := by
  have asked : (access services transport).find entity condition include_ = (do
      Action.ofExcept (received entity (← ExceptT.lift (transport.send (address service)
        (request entity condition include_))))) := by
    unfold access
    simp only [registered, sendable_request askable.asks askable.attaches askable.strict]
  rw [asked, Action.step_lift_bind, sent, Action.step_ofExcept]

end Find

/-- **What a find through a service comes to.** Without a service for the entity the fetch fails and nothing is sent.
Otherwise one request is sent, and its delivery brings records, which are mappings, or fails the fetch of the entity, or
is a good answer whose body can not be read or is no find response; only then something else comes out than records or a
failed fetch: the fault of the reader, or the report of what keeps the body from being a response. -/
theorem find_outcome {σ : Type} (services : List (String × String)) (transport : Transport σ) (entity : String)
    {condition include_ : Value} (askable : Askable condition include_) (s : σ) :
    let find := ((access services transport).find entity condition include_).step s
    ((services.lookup entity).filter (· != "") = none →
      find = (.error (.accessFailed entity "No service registered" none none), s)) ∧
    ∀ service, (services.lookup entity).filter (· != "") = some service → ∀ d s',
      (transport.send (address service) (request entity condition include_)).run s = (d, s') → find.2 = s' ∧
        ((∃ rows, d.Brings rows ∧ (∀ row ∈ rows, row.isMap = true) ∧ find.1 = .ok (.list rows)) ∧ (∀ c, ¬ d.Spoils c) ∨
          (∃ text status cause, d.Fails text status cause ∧
            find.1 = .error (.accessFailed entity text (some status) cause)) ∧ (∀ c, ¬ d.Spoils c) ∨
          ∃ c, d.Spoils c ∧ find.1 = .error (.cause c)) := by
  intro find
  refine ⟨fun none_ => find_unregistered none_ s, fun service registered d s' sent => ?_⟩
  have found : find = (received entity d, s') := find_registered registered askable sent
  rw [found]
  refine ⟨rfl, ?_⟩
  rcases received_outcome entity d with ⟨⟨rows, brings, eq⟩, unspoiled⟩ | failed | spoiled
  · refine .inl ⟨⟨rows, brings, ?_, eq⟩, unspoiled⟩
    cases brings with
    | good _ response => exact response.maps
  · exact .inr (.inl failed)
  · exact .inr (.inr spoiled)

namespace Sample

def services : List (String × String) := [("City", "http://geo:8001/")]

/-- The cities that are named so, each with its country and its people. -/
def asked : Value := .ofFields [("name", .text "Auckland")]

def attached : Value := .list [.text "country", .ofFields [("people", .null)]]

theorem askable : Askable asked attached := ⟨by decide, .inr rfl, .inr (.inr (.inl rfl)), by decide⟩

/-- A good answer of which one item is no record. -/
def misshapen : Delivery := .response ⟨200, .json (.ofFields [("items", .list [.ofFields [("id", .int 1)], .int 2])])⟩

/-- A good answer that is no JSON. -/
def page : Delivery := .response ⟨200, .text "<html>"⟩

end Sample

/-- One item that is no record is told by its place, and the record before it does not come out. -/
theorem find_outcome_misshapen : Askable Sample.asked Sample.attached ∧
    let find := ((access Sample.services scripted).find "City" Sample.asked Sample.attached).step ⟨[Sample.misshapen], []⟩
    Sample.misshapen.Spoils (.shape .findResponse [⟨[.key "items", .index 1], .notMapping⟩]) ∧
      find.1 = .error (.cause (.shape .findResponse [⟨[.key "items", .index 1], .notMapping⟩])) ∧
      find.2.sent = [⟨"http://geo:8001/internal/find", request "City" Sample.asked Sample.attached⟩] := by
  refine ⟨Sample.askable, ?_⟩
  have came : ((access Sample.services scripted).find "City" Sample.asked Sample.attached).step
      ⟨[Sample.misshapen], []⟩ = (.error (.cause (.shape .findResponse [⟨[.key "items", .index 1], .notMapping⟩])),
        ⟨[], [⟨"http://geo:8001/internal/find", request "City" Sample.asked Sample.attached⟩]⟩) := rfl
  obtain ⟨-, registered⟩ := find_outcome Sample.services scripted "City" Sample.askable ⟨[Sample.misshapen], []⟩
  obtain ⟨-, outcome⟩ := registered "http://geo:8001/" rfl Sample.misshapen _ rfl
  rw [came] at outcome ⊢
  rcases outcome with ⟨⟨_, -, -, eq⟩, -⟩ | ⟨⟨_, _, _, -, eq⟩, -⟩ | ⟨c, spoils, eq⟩
  · cases eq
  · cases eq
  · cases eq
    exact ⟨spoils, rfl, rfl⟩

/-- Not every answer comes to records or to a failed fetch. -/
theorem page_escapes : ¬ ∀ (services : List (String × String)) (entity : String) (condition include_ : Value),
    Askable condition include_ → ∀ d : Delivery,
      let find := ((access services scripted).find entity condition include_).step ⟨[d], []⟩
      (∃ rows, find.1 = .ok (.list rows)) ∨
        ∃ text status cause, find.1 = .error (.accessFailed entity text status cause) := by
  intro all
  have read : ∃ f, Body.read (.text "<html>") = .error f := by
    have fails : (Body.read (.text "<html>")).toOption.isNone = true := by decide +kernel
    cases eq : Body.read (.text "<html>") with
    | error f => exact ⟨f, rfl⟩
    | ok v => simp [eq, Except.toOption] at fails
  obtain ⟨f, read⟩ := read
  have came : (((access Sample.services scripted).find "City" Sample.asked Sample.attached).step
      ⟨[Sample.page], []⟩).1 = .error (.cause (.document f)) := by
    have answers : Sample.page.Answers 200 "<html>" (.error f) := read ▸ .response ⟨200, .text "<html>"⟩
    have registered : (Sample.services.lookup "City").filter (· != "") = some "http://geo:8001/" := rfl
    rw [find_registered registered Sample.askable rfl]
    exact answers.received_eq "City"
  rcases all Sample.services "City" _ _ Sample.askable Sample.page with ⟨rows, ok⟩ | ⟨text, status, cause, failed⟩
  · rw [came] at ok
    cases ok
  · rw [came] at failed
    cases failed

end Remote

end Semijoin
