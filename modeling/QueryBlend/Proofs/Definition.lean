import QueryBlend.Definition
import QueryBlend.Proofs.Json.Documents
/-!
# What is written of a blend is read back

Each record of a definition is read back from what is written of it, from the inside out: fields and
predicates, then queries and joins (`read_field`, `read_query`, `read_predicate`, `read_join`), then the
blend. A member that is left out is a member that stays empty, so an alias that a query does not have is
told from an empty one.

* `read_render`: every blend is read back from its definition, and from a definition over lines.
-/
namespace QueryBlend
open Json

/-! ## Parts of definitions -/

theorem readString_textValue (s : String) : readString (textValue s).doc = .ok s := by
  rw [textValue, Value.doc, readString_text, String.ofList_toList]

theorem readOptional_textValue (s : String) : readOptional (textValue s).doc = .ok (some s) := by
  rw [textValue, Value.doc, readOptional_text, String.ofList_toList]

theorem readRole_textValue (k : FieldRole) :
    readChoice (FieldRole.all.map FieldRole.name) FieldRole.ofName? (textValue k.name).doc = .ok k := by
  rw [textValue, Value.doc, readRole_name]

theorem readJoinKind_textValue (t : JoinKind) :
    readChoice (JoinKind.all.map JoinKind.name) JoinKind.ofName? (textValue t.name).doc = .ok t := by
  rw [textValue, Value.doc, readJoinKind_name]

theorem read_field (f : Field) : fieldSchema.read f.toValue.doc = .ok f := by
  have hid : fieldSchema.put fieldSchema.start "id" (textValue f.id).doc = .ok { id := some f.id } := by
    simp [fieldSchema, readString_textValue, Except.map]
  have hlabel : fieldSchema.put { id := some f.id } "label" (textValue f.label).doc =
      .ok { id := some f.id, label := some f.label } := by
    simp [fieldSchema, readString_textValue, Except.map]
  have hrole : fieldSchema.put { id := some f.id, label := some f.label } "kind"
      (textValue f.role.name).doc =
        .ok { id := some f.id, label := some f.label, role := some f.role } := by
    simp [fieldSchema, readRole_textValue, Except.map]
  calc fieldSchema.read f.toValue.doc
      = fieldSchema.finish { id := some f.id, label := some f.label, role := some f.role } :=
        Schema.read_doc (by
          rw [Schema.readObject_cons (by decide) (by decide) hid,
            Schema.readObject_cons (by decide) (by decide) hlabel,
            Schema.readObject_cons (by decide) (by decide) hrole, Schema.readObject_nil])
    _ = .ok f := rfl

theorem read_predicate (p : Predicate) : predicateSchema.read p.toValue.doc = .ok p := by
  have hquery : predicateSchema.put predicateSchema.start "from_query_id" (textValue p.fromQuery).doc =
      .ok { fromQuery := some p.fromQuery } := by
    simp [predicateSchema, readString_textValue, Except.map]
  have hfrom : predicateSchema.put { fromQuery := some p.fromQuery } "from_field"
      (textValue p.fromField).doc =
        .ok { fromQuery := some p.fromQuery, fromField := some p.fromField } := by
    simp [predicateSchema, readString_textValue, Except.map]
  have hto : predicateSchema.put { fromQuery := some p.fromQuery, fromField := some p.fromField }
      "to_field" (textValue p.toField).doc =
        .ok { fromQuery := some p.fromQuery, fromField := some p.fromField
              toField := some p.toField } := by
    simp [predicateSchema, readString_textValue, Except.map]
  calc predicateSchema.read p.toValue.doc
      = predicateSchema.finish { fromQuery := some p.fromQuery, fromField := some p.fromField
                                 toField := some p.toField } :=
        Schema.read_doc (by
          rw [Schema.readObject_cons (by decide) (by decide) hquery,
            Schema.readObject_cons (by decide) (by decide) hfrom,
            Schema.readObject_cons (by decide) (by decide) hto, Schema.readObject_nil])
    _ = .ok p := rfl

/-- A member that is written only if there is a value leads to the same draft without one. -/
theorem readObject_optionalMember {δ α : Type} {s : Schema δ α} {seen : List String} {draft draft' : δ}
    {name : String} {given : Option String} {ms : List (List Char × Value)}
    (hfield : (s.fields.any fun f => f.1 == name) = true) (hnew : name ∉ seen)
    (habsent : given = none → draft = draft')
    (hput : ∀ t, given = some t → s.put draft name (textValue t).doc = .ok draft') :
    s.readObject seen draft (memberDocs (optionalMember name given ++ ms)) =
      s.readObject (if given.isSome then name :: seen else seen) draft' (memberDocs ms) := by
  cases given with
  | none => rw [habsent rfl]; rfl
  | some t => exact Schema.readObject_cons hfield hnew (hput t rfl)

theorem read_query (q : Query) : querySchema.read q.toValue.doc = .ok q := by
  have hid : querySchema.put querySchema.start "id" (textValue q.id).doc = .ok { id := some q.id } := by
    simp [querySchema, readString_textValue, Except.map]
  have hsource (t : String) (ht : q.sourceId = some t) :
      querySchema.put { id := some q.id } "source_id" (textValue t).doc =
        .ok { id := some q.id, sourceId := q.sourceId } := by
    simp [querySchema, readOptional_textValue, Except.map, ht]
  have hname (t : String) (ht : q.givenName = some t) :
      querySchema.put { id := some q.id, sourceId := q.sourceId } "alias" (textValue t).doc =
        .ok { id := some q.id, sourceId := q.sourceId, givenName := q.givenName } := by
    simp [querySchema, readOptional_textValue, Except.map, ht]
  have hfields : querySchema.put { id := some q.id, sourceId := q.sourceId, givenName := q.givenName }
      "fields" (Value.list (q.fields.map Field.toValue)).doc =
        .ok { id := some q.id, sourceId := q.sourceId, givenName := q.givenName
              fields := q.fields } := by
    simp [querySchema, readList_doc fun f _ => read_field f, Except.map]
  have hlimit : querySchema.put { id := some q.id, sourceId := q.sourceId, givenName := q.givenName
                                  fields := q.fields } "respect_limit" (Value.bool q.respectLimit).doc =
        .ok { id := some q.id, sourceId := q.sourceId, givenName := q.givenName
              fields := q.fields, respectLimit := q.respectLimit } := by
    simp [querySchema, Value.doc, readFlag_bool, Except.map]
  calc querySchema.read q.toValue.doc
      = querySchema.finish { id := some q.id, sourceId := q.sourceId, givenName := q.givenName
                             fields := q.fields, respectLimit := q.respectLimit } :=
        Schema.read_doc (by
          -- which names have been read when the fields come depends on the optional members
          rw [Query.toMembers, Schema.readObject_cons (by decide) (by decide) hid, List.append_assoc,
            readObject_optionalMember (by decide) (by decide) (fun h => by rw [h]) hsource,
            readObject_optionalMember (by decide) (by cases q.sourceId <;> simp)
              (fun h => by rw [h]) hname,
            Schema.readObject_cons (by decide)
              (by cases q.givenName <;> cases q.sourceId <;> simp) hfields,
            Schema.readObject_cons (by decide)
              (by cases q.givenName <;> cases q.sourceId <;> simp) hlimit, Schema.readObject_nil])
    _ = .ok q := rfl

theorem read_join (j : Join) : joinSchema.read j.toValue.doc = .ok j := by
  have htarget : joinSchema.put joinSchema.start "to_query_id" (textValue j.target).doc =
      .ok { target := some j.target } := by
    simp [joinSchema, readString_textValue, Except.map]
  have hkind : joinSchema.put { target := some j.target } "join_type" (textValue j.kind.name).doc =
      .ok { target := some j.target, kind := j.kind } := by
    simp [joinSchema, readJoinKind_textValue, Except.map]
  have hpredicates : joinSchema.put { target := some j.target, kind := j.kind } "predicates"
      (Value.list (j.predicates.map Predicate.toValue)).doc =
        .ok { target := some j.target, kind := j.kind, predicates := j.predicates } := by
    simp [joinSchema, readList_doc fun p _ => read_predicate p, Except.map]
  calc joinSchema.read j.toValue.doc
      = joinSchema.finish { target := some j.target, kind := j.kind, predicates := j.predicates } :=
        Schema.read_doc (by
          rw [Schema.readObject_cons (by decide) (by decide) htarget,
            Schema.readObject_cons (by decide) (by decide) hkind,
            Schema.readObject_cons (by decide) (by decide) hpredicates, Schema.readObject_nil])
    _ = .ok j := rfl

/-! ## Blends -/

theorem read_blend (b : Blend) : blendSchema.read b.toValue.doc = .ok b := by
  have hqueries : blendSchema.put blendSchema.start "queries"
      (Value.list (b.queries.map Query.toValue)).doc = .ok { queries := some b.queries } := by
    simp [blendSchema, readList_doc fun q _ => read_query q, Except.map]
  have hjoins : blendSchema.put { queries := some b.queries } "joins"
      (Value.object (b.joins.entries.map fun e => (e.1.toList, e.2.toValue))).doc =
        .ok { queries := some b.queries, joins := b.joins } := by
    simp [blendSchema, readDict_doc b.joins fun e _ => read_join e.2, Except.map]
  calc blendSchema.read b.toValue.doc
      = blendSchema.finish { queries := some b.queries, joins := b.joins } :=
        Schema.read_doc (by
          rw [Schema.readObject_cons (by decide) (by decide) hqueries,
            Schema.readObject_cons (by decide) (by decide) hjoins, Schema.readObject_nil])
    _ = .ok b := rfl

/-- **Round trip.** Every blend is read back as it was from its definition, in whatever order its joins
are, and also from the definition over lines. -/
theorem Blend.read_render (b : Blend) :
    Blend.read b.render = .ok b ∧ ∀ level, Blend.read (b.toValue.renderLines level) = .ok b :=
  readDocument_written (read_blend b)

end QueryBlend
