import QueryBlend.Blend
import QueryBlend.Json.Reading
import QueryBlend.Json.Value
/-!
# Blend definitions

A blend is kept as a JSON text. Fields of a definition that have a usual value may be left out; an alias
or a source id that a query does not have is left out when a definition is written.

Results:
* `readRole_name`, `readJoinKind_name`: the names of roles and kinds are read back.
-/
namespace QueryBlend
open Json

/-! ## Writing -/

def textValue (s : String) : Value := .text s.toList

def Field.toValue (f : Field) : Value :=
  .object [("id".toList, textValue f.id), ("label".toList, textValue f.label),
    ("kind".toList, textValue f.role.name)]

/-- A member that is written only if there is a value. -/
def optionalMember (name : String) : Option String → List (List Char × Value)
  | some s => [(name.toList, textValue s)]
  | none => []

def Query.toMembers (q : Query) : List (List Char × Value) :=
  ("id".toList, textValue q.id) :: (optionalMember "source_id" q.sourceId ++
    optionalMember "alias" q.givenName ++
    [("fields".toList, .list (q.fields.map Field.toValue)),
      ("respect_limit".toList, .bool q.respectLimit)])

def Query.toValue (q : Query) : Value := .object q.toMembers

def Predicate.toValue (p : Predicate) : Value :=
  .object [("from_query_id".toList, textValue p.fromQuery),
    ("from_field".toList, textValue p.fromField), ("to_field".toList, textValue p.toField)]

def Join.toValue (j : Join) : Value :=
  .object [("to_query_id".toList, textValue j.target), ("join_type".toList, textValue j.kind.name),
    ("predicates".toList, .list (j.predicates.map Predicate.toValue))]

def Blend.toValue (b : Blend) : Value :=
  .object [("queries".toList, .list (b.queries.map Query.toValue)),
    ("joins".toList, .object (b.joins.entries.map fun e => (e.1.toList, e.2.toValue)))]

def Blend.render (b : Blend) : List Char := b.toValue.render

/-! ## Reading -/

/-- What has been read of a field. -/
structure FieldDraft where
  id : Option String := none
  label : Option String := none
  role : Option FieldRole := none

def fieldSchema : Schema FieldDraft Field where
  name := "FieldRef"
  fields := [("id", false), ("label", true), ("kind", false)]
  start := {}
  put d name v :=
    if name = "id" then (readString v).map fun s => { d with id := some s }
    else if name = "label" then (readString v).map fun s => { d with label := some s }
    else
      (readChoice (FieldRole.all.map FieldRole.name) FieldRole.ofName? v).map fun r =>
        { d with role := some r }
  finish d := do
    let id ← required "id" d.id
    let role ← required "kind" d.role
    return { id := id, label := d.label.getD "", role := role }

structure QueryDraft where
  id : Option String := none
  sourceId : Option String := none
  givenName : Option String := none
  fields : List Field := []
  respectLimit : Bool := false

def querySchema : Schema QueryDraft Query where
  name := "Query"
  fields := [("id", false), ("source_id", true), ("alias", true), ("fields", true),
    ("respect_limit", true)]
  start := {}
  put d name v :=
    if name = "id" then (readString v).map fun s => { d with id := some s }
    else if name = "source_id" then (readOptional v).map fun s => { d with sourceId := s }
    else if name = "alias" then (readOptional v).map fun s => { d with givenName := s }
    else if name = "fields" then
      (readList fieldSchema.read v).map fun fs => { d with fields := fs }
    else (readFlag v).map fun b => { d with respectLimit := b }
  finish d := do
    let id ← required "id" d.id
    return { id := id, sourceId := d.sourceId, givenName := d.givenName, fields := d.fields
             respectLimit := d.respectLimit }

structure PredicateDraft where
  fromQuery : Option String := none
  fromField : Option String := none
  toField : Option String := none

def predicateSchema : Schema PredicateDraft Predicate where
  name := "FieldPair"
  fields := [("from_query_id", false), ("from_field", false), ("to_field", false)]
  start := {}
  put d name v :=
    if name = "from_query_id" then (readString v).map fun s => { d with fromQuery := some s }
    else if name = "from_field" then (readString v).map fun s => { d with fromField := some s }
    else (readString v).map fun s => { d with toField := some s }
  finish d := do
    let fromQuery ← required "from_query_id" d.fromQuery
    let fromField ← required "from_field" d.fromField
    let toField ← required "to_field" d.toField
    return { fromQuery := fromQuery, fromField := fromField, toField := toField }

structure JoinDraft where
  target : Option String := none
  kind : JoinKind := .inner
  predicates : List Predicate := []

def joinSchema : Schema JoinDraft Join where
  name := "JoinSpec"
  fields := [("to_query_id", false), ("join_type", true), ("predicates", true)]
  start := {}
  put d name v :=
    if name = "to_query_id" then (readString v).map fun s => { d with target := some s }
    else if name = "join_type" then
      (readChoice (JoinKind.all.map JoinKind.name) JoinKind.ofName? v).map fun k =>
        { d with kind := k }
    else (readList predicateSchema.read v).map fun ps => { d with predicates := ps }
  finish d := do
    let target ← required "to_query_id" d.target
    return { target := target, kind := d.kind, predicates := d.predicates }

structure BlendDraft where
  queries : Option (List Query) := none
  joins : Dict Join := {}

def blendSchema : Schema BlendDraft Blend where
  name := "BlendSet"
  fields := [("queries", false), ("joins", true)]
  start := {}
  put d name v :=
    if name = "queries" then
      (readList querySchema.read v).map fun qs => { d with queries := some qs }
    else (readDict joinSchema.read v).map fun js => { d with joins := js }
  finish d := do
    let queries ← required "queries" d.queries
    return { queries := queries, joins := d.joins }

def Blend.read (s : List Char) : Except Problem Blend := readDocument blendSchema.read s

theorem readRole_name (k : FieldRole) :
    readChoice (FieldRole.all.map FieldRole.name) FieldRole.ofName? (.text k.name.toList) = .ok k := by
  simp [readChoice, readVariant, FieldRole.ofName?_name]

theorem readJoinKind_name (t : JoinKind) :
    readChoice (JoinKind.all.map JoinKind.name) JoinKind.ofName? (.text t.name.toList) = .ok t := by
  simp [readChoice, readVariant, JoinKind.ofName?_name]

end QueryBlend
