import QueryBlend.Proofs.JoinTree
import QueryBlend.Request
/-!
# Queries do not get into each other's way

What a source answers about a query shows in the body of its common table expression and nowhere else.

**No failure.** Once the dialect of a request is known, nothing stops it: a source that has no SQL for a
query, or SQL that cannot be put on stable views, still gives a text (`compiles_of_hasDialect`). This
holds of sources with effects too.

**No influence.** To replace the text of one query is to replace one common table expression
(`expressions_set`), and what stands around its body does not depend on the text (`statement_set`).

**Layout.** This is said of statements as they are composed. A formatter may do what it likes with a
statement, but only the blanks of its answer get through (`finish_plain`).

* `compile_isolated`: all of it, for every formatter and all requests with at least one query.
-/
namespace QueryBlend
open Text

/-! ## One text replaced -/

/-- What stands around one of many joined parts does not depend on the part. -/
theorem joinWith_set (sep : List Char) {parts : List (List Char)} {i : Nat} (h : i < parts.length) :
    ∃ front behind, ∀ part, joinWith sep (parts.set i part) = front ++ part ++ behind := by
  induction parts generalizing i with
  | nil => cases h
  | cons first rest ih =>
    cases i with
    | zero =>
      cases rest with
      | nil => exact ⟨[], [], fun part => (List.append_nil part).symm⟩
      | cons second rest => exact ⟨[], _, fun part => List.append_assoc _ _ _⟩
    | succ i =>
      obtain ⟨front, behind, hparts⟩ := ih (Nat.lt_of_succ_lt_succ h)
      refine ⟨first ++ sep ++ front, behind, fun part => ?_⟩
      have hne : rest.set i part ≠ [] := by
        intro he
        rw [List.set_eq_nil_iff] at he
        rw [he] at h
        simp at h
      rw [List.set_cons_succ, joinWith_cons _ _ hne, hparts]
      simp only [List.append_assoc]

namespace Blend

theorem expressions_set {qs : List Query} {raws : List (List Char)} {i : Nat} {q : Query}
    (hq : qs[i]? = some q) (hi : i < raws.length) (raw : List Char) :
    expressions qs (raws.set i raw) =
      (expressions qs raws).set i (expression q.name.toList (body q raw)) := by
  induction qs generalizing raws i with
  | nil => cases hq
  | cons first qs ih =>
    obtain ⟨text, texts, rfl⟩ := List.exists_cons_of_length_pos (Nat.zero_lt_of_lt hi)
    cases i with
    | zero =>
      cases hq
      rfl
    | succ i =>
      rw [List.set_cons_succ, expressions, expressions, List.headD_cons, List.headD_cons,
        List.tail_cons, List.tail_cons, ih hq (Nat.lt_of_succ_lt_succ hi), List.set_cons_succ]

/-- What stands around the body of a query does not depend on the query's text. -/
theorem statement_set (b : Blend) (d : Dialect) (token : Option String) {raws : List (List Char)}
    {i : Nat} {q : Query} (hq : b.queries[i]? = some q) (hi : i < raws.length) :
    ∃ front behind, q.name.toList ++ " AS (\n".toList <:+ front ∧ "\n)".toList <+: behind ∧
      ∀ raw, (b.statement d token (raws.set i raw)).sql = front ++ body q raw ++ behind := by
  have hlt : i < (expressions b.queries raws).length := by
    rw [expressions_length]
    exact (List.getElem?_eq_some_iff.mp hq).1
  obtain ⟨front, behind, hjoined⟩ := joinWith_set ",\n".toList hlt
  refine ⟨tokenLine token ++ "WITH ".toList ++ front ++ (q.name.toList ++ " AS (\n".toList),
    "\n)".toList ++ (behind ++ '\n' :: b.selection d.naming ++
      (b.joinings d.naming).flatMap ('\n' :: ·)), List.suffix_append _ _, List.prefix_append _ _,
    fun raw => ?_⟩
  have htables : b.commonTables (raws.set i raw) =
      "WITH ".toList ++ (front ++ expression q.name.toList (body q raw) ++ behind) := by
    unfold commonTables
    rw [expressions_set hq hi, hjoined]
  show tokenLine token ++ b.commonTables (raws.set i raw) ++ '\n' :: b.selection d.naming ++
    (b.joinings d.naming).flatMap ('\n' :: ·) = _
  rw [htables]
  unfold expression
  simp only [List.append_assoc]

end Blend

namespace Request

variable {r : Request} {m : Type → Type} [Monad m] {format : Sql.Formatter}

/-! ## No failure -/

/-- The dialect of a request is given, or the source has the name of that of its connection. -/
inductive HasDialect (source : SqlSource m) (r : Request) : Prop
  | given (d : Dialect) (h : r.dialect = some d)
  | named (connection : String) (name : m String) (h : r.connection = some connection)
    (answer : source.dialectName connection = Except.ok <$> name)

/-- The request gives a statement and no error. -/
def Compiles (format : Sql.Formatter) (source : SqlSource m) (r : Request) : Prop :=
  ∃ out : m Compiled, r.compile format source = Except.ok <$> out

theorem exists_dialectIn [LawfulMonad m] {source : SqlSource m} (h : HasDialect source r) :
    ∃ d : m Dialect, r.dialectIn source = Except.ok <$> d := by
  cases hd : r.dialect with
  | some d => exact ⟨pure d, by simp [dialectIn, hd]⟩
  | none =>
    cases h with
    | given d h => rw [h] at hd; cases hd
    | named connection name h answer =>
      exact ⟨Dialect.ofName <$> name, by simp [dialectIn, hd, h, answer]⟩

theorem compile_of_dialectIn [LawfulMonad m] {source : SqlSource m} (hne : r.blend.queries ≠ [])
    {d : m Dialect} (h : r.dialectIn source = Except.ok <$> d) :
    r.compile format source =
      Except.ok <$> do return r.finish format (← d) (← source.fetchEach r.blend.queries) := by
  simp [compile, hne, h]

theorem compiles_of_hasDialect [LawfulMonad m] {source : SqlSource m} (hne : r.blend.queries ≠ [])
    (h : HasDialect source r) : Compiles format source r := by
  obtain ⟨d, hd⟩ := exists_dialectIn h
  exact ⟨_, compile_of_dialectIn hne hd⟩

/-! ## No influence -/

/-- The body that a request makes of the SQL of a query. -/
def bodyOf (r : Request) (q : Query) (raw : String) : List Char :=
  Blend.body q (prepare r.stableViews raw)

/-- Nothing is different but the body of one query's common table expression. -/
structure DiffersInBody (q : Query) (inner inner' : List Char) (out out' : Compiled) : Prop where
  dialect_eq : out.dialect = out'.dialect
  columns_eq : out.columns = out'.columns
  sql_eq : ∃ front behind, q.name.toList ++ " AS (\n".toList <:+ front ∧ "\n)".toList <+: behind ∧
    out.sql = front ++ inner ++ behind ∧ out'.sql = front ++ inner' ++ behind

theorem finish_set (hpretty : r.pretty = false) (d : Dialect) {raws : List String} {i : Nat} {q : Query}
    (hq : r.blend.queries[i]? = some q) (hi : i < raws.length) (raw raw' : String) :
    DiffersInBody q (r.bodyOf q raw) (r.bodyOf q raw')
      (r.finish format d (raws.set i raw)) (r.finish format d (raws.set i raw')) := by
  have hi' : i < (raws.map (prepare r.stableViews)).length := by rwa [List.length_map]
  obtain ⟨front, behind, hfront, hbehind, hsql⟩ := r.blend.statement_set d r.token hq hi'
  have houter (text : String) : (r.finish format d (raws.set i text)).sql =
      front ++ r.bodyOf q text ++ behind := by
    simp only [finish, hpretty, List.map_set, hsql, bodyOf]
    rfl
  exact ⟨rfl, rfl, front, behind, hfront, hbehind, houter raw, houter raw'⟩

/-- Nothing is different but the blanks of the SQL. -/
structure DiffersInBlanks (out out' : Compiled) : Prop where
  dialect_eq : out.dialect = out'.dialect
  columns_eq : out.columns = out'.columns
  sql_eq : Sql.squeeze out.sql = Sql.squeeze out'.sql

/-- The request for the statement as it is composed. -/
def plain (r : Request) : Request := { r with pretty := false }

theorem finish_plain (format : Sql.Formatter) (r : Request) (d : Dialect) (raws : List String) :
    DiffersInBlanks (r.finish format d raws) (r.plain.finish format d raws) where
  dialect_eq := rfl
  columns_eq := rfl
  sql_eq := by
    unfold finish plain
    simp only [Bool.false_eq_true, if_false]
    split
    · exact Sql.squeeze_layOut format _
    · rfl

theorem fetchEach_eq_map (source : SqlSource Id) (qs : List Query) :
    source.fetchEach qs = qs.map fun q => source.fetch q.source := by
  rw [SqlSource.fetchEach]
  exact List.idRun_mapM

/-- Two sources have the same SQL for all queries but the one with an index. -/
def AgreeExcept (source source' : SqlSource Id) (qs : List Query) (i : Nat) : Prop :=
  ∀ k q, k ≠ i → qs[k]? = some q → source.fetch q.source = source'.fetch q.source

theorem fetchEach_eq_set {source source' : SqlSource Id} {qs : List Query} {i : Nat} {q : Query}
    (hq : qs[i]? = some q) (hagree : AgreeExcept source source' qs i) :
    source'.fetchEach qs = (source.fetchEach qs).set i (source'.fetch q.source) := by
  rw [fetchEach_eq_map, fetchEach_eq_map]
  refine List.ext_getElem? fun k => ?_
  rw [List.getElem?_map, List.getElem?_set, List.getElem?_map]
  by_cases hk : i = k
  · subst hk
    have hi : i < (qs.map fun q => source.fetch q.source).length := by
      rw [List.length_map]
      exact (List.getElem?_eq_some_iff.mp hq).1
    rw [if_pos rfl, if_pos hi, hq]
    rfl
  · rw [if_neg hk]
    cases hp : qs[k]? with
    | none => rfl
    | some p => exact congrArg some (hagree k p (Ne.symm hk) hp).symm

theorem compile_eq_finish {source : SqlSource Id} (hne : r.blend.queries ≠ []) {d : Dialect}
    (h : r.dialectIn source = .ok d) :
    r.compile format source = .ok (r.finish format d (source.fetchEach r.blend.queries)) := by
  rw [compile_of_dialectIn hne (d := (d : Id Dialect)) h]
  rfl

/-- **Isolation of queries.** Whatever lays out its statement, a request with a query and a dialect is
compiled whatever the source has for its queries; and if two sources differ on one query only, then the
statements, as they are before they are laid out, differ in the body of that query's common table
expression only. Laying out changes the blanks of a statement and nothing else. -/
theorem compile_isolated (format : Sql.Formatter) (r : Request) (hne : r.blend.queries ≠ []) :
    (∀ (m : Type → Type) [Monad m] [LawfulMonad m] (source : SqlSource m),
      HasDialect source r → Compiles format source r) ∧
    (r.pretty = false → ∀ (source source' : SqlSource Id) (d : Dialect) (i : Nat) (q : Query),
      r.dialectIn source = .ok d → r.dialectIn source' = .ok d → r.blend.queries[i]? = some q →
      AgreeExcept source source' r.blend.queries i →
      ∃ out out', r.compile format source = .ok out ∧ r.compile format source' = .ok out' ∧
        DiffersInBody q (r.bodyOf q (source.fetch q.source)) (r.bodyOf q (source'.fetch q.source))
          out out') ∧
    (∀ (source : SqlSource Id) (d : Dialect), r.dialectIn source = .ok d →
      ∃ out plain, r.compile format source = .ok out ∧ r.plain.compile format source = .ok plain ∧
        DiffersInBlanks out plain) := by
  refine ⟨fun m _ _ source h => compiles_of_hasDialect hne h, ?_, fun source d hd =>
    ⟨_, _, compile_eq_finish hne hd, compile_eq_finish (r := r.plain) hne hd, finish_plain format r d _⟩⟩
  intro hpretty source source' d i q hd hd' hq hagree
  have hi : i < (source.fetchEach r.blend.queries).length := by
    rw [fetchEach_eq_map, List.length_map]
    exact (List.getElem?_eq_some_iff.mp hq).1
  -- both lists of texts are the first one with the text of the query put in
  have hself : source.fetchEach r.blend.queries =
      (source.fetchEach r.blend.queries).set i (source.fetch q.source) :=
    fetchEach_eq_set hq fun _ _ _ _ => rfl
  refine ⟨_, _, compile_eq_finish hne hd, compile_eq_finish hne hd', ?_⟩
  rw [fetchEach_eq_set hq hagree, hself, List.set_set]
  exact finish_set hpretty d hq hi _ _

/-- A source with a text for the last query of the trio, or without one. -/
def trioSource (text : Option String) : KnownQueries where
  queries := Dict.ofList ([("orders", "SELECT 1 AS id"), ("days", "")] ++
    (text.map fun t => ("q3", t)).toList)
  connections := Dict.ofList [("warehouse", "snowflake")]

def trioRequest : Request where
  blend := Blend.trio
  connection := some "warehouse"
  stableViews := true
  pretty := false

/-- A query that is not there, and one that is. -/
theorem compile_isolated_trio :
    Compiles (m := Id) Sql.asWritten (trioSource none).source trioRequest ∧
    ∃ q out out', Blend.trio.queries[2]? = some q ∧
      trioRequest.compile (m := Id) Sql.asWritten (trioSource none).source = .ok out ∧
      trioRequest.compile (m := Id) Sql.asWritten
        (trioSource (some "SELECT name FROM users LIMIT 5")).source = .ok out' ∧
      DiffersInBody q (trioRequest.bodyOf q (missingSql "q3"))
        (trioRequest.bodyOf q "SELECT name FROM users LIMIT 5") out out' := by
  have hne : trioRequest.blend.queries ≠ [] := List.cons_ne_nil _ _
  have hagree : AgreeExcept (trioSource none).source
      (trioSource (some "SELECT name FROM users LIMIT 5")).source Blend.trio.queries 2 := by
    intro k q hk hq
    match k, hk, hq with
    | 0, _, hq => cases hq; rfl
    | 1, _, hq => cases hq; rfl
    | k + 3, _, hq => cases hq
  obtain ⟨hcompiles, hdiffers, -⟩ := compile_isolated Sql.asWritten trioRequest hne
  obtain ⟨out, out', h⟩ := hdiffers rfl _ _ .snowflake 2 _ rfl rfl rfl hagree
  exact ⟨hcompiles Id _ (.named "warehouse" "snowflake" rfl rfl), _, out, out', rfl, h⟩

end Request
end QueryBlend
