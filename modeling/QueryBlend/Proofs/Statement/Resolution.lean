import QueryBlend.Proofs.JoinTree
import QueryBlend.Statement
/-!
# Every name of a blended statement is bound

The checks of a blend and the statement look queries up in ways of their own: by the place of the first
query with an id, in a table where the last one counts, or not at all. In a valid blend it makes no
difference, and the statement reads from nothing that it does not open.

**Taking apart.** `Parts` is a blended statement as names instead of text: its common table
expressions, the root, and for each further line the name it joins and the equalities of its condition.
How parts are written is spelled out here, down to the marks around a name, and apart from how a blend is
composed. `parts` takes the statement of a blend apart, and the text is what its parts say
(`statement_render`).

**Bindings.** In a join tree each query behind the root has its line (`joined_getElem?`). A condition
names a query further in front, which is called by its own name (`nameOf_eq`), and that is the root or
is joined by an earlier line (`reads_of_isJoinTree`).

* `statement_resolved`: in the statement of a valid blend all names are bound.
-/
namespace QueryBlend
open Text

/-- The equality of two fields, each read from a common table expression. -/
structure Equality where
  source : String
  sourceField : String
  target : String
  targetField : String
  deriving DecidableEq, Repr

structure JoinLine where
  kind : JoinKind
  name : String
  equalities : List Equality
  deriving DecidableEq, Repr

structure Parts where
  token : List Char
  /-- The common table expressions, by name and body. -/
  tables : List (String × List Char)
  columns : List Char
  /-- What the statement selects from. -/
  root : String
  lines : List JoinLine
  deriving DecidableEq, Repr

namespace Equality

/-- What stands for a character of a field where the field is read. -/
def fieldChars (n : Naming) (c : Char) : List Char :=
  match n with
  | .flattened => if c = '.' then ['_'] else [c]
  | .quoted => if c = '\x22' then [c, c] else [c]

/-- The text that reads a field from a common table expression: a flattened name as it is, and any other
one between double quotes. -/
def reading (n : Naming) (table field : String) : List Char :=
  let name := field.toList.flatMap (fieldChars n)
  match n with
  | .flattened => table.toList ++ ".".toList ++ name
  | .quoted => table.toList ++ ".\"".toList ++ name ++ "\"".toList

def render (n : Naming) (e : Equality) : List Char :=
  reading n e.source e.sourceField ++ " = ".toList ++ reading n e.target e.targetField

theorem flatten_eq (s : List Char) : flatten s = s.flatMap (fieldChars .flattened) := by
  rw [flatten, List.map_eq_flatMap]
  refine List.flatMap_congr fun c _ => ?_
  unfold fieldChars
  split <;> rfl

theorem doubleQuotes_eq (s : List Char) : doubleQuotes s = s.flatMap (fieldChars .quoted) := by
  induction s with
  | nil => rfl
  | cons c cs ih =>
    rw [doubleQuotes, List.flatMap_cons, ih, fieldChars]
    split <;> rfl

theorem getter_eq_reading (n : Naming) (table field : String) :
    n.getter table.toList field.toList = reading n table field := by
  cases n with
  | flattened =>
    show table.toList ++ '.' :: flatten field.toList = _
    rw [flatten_eq, reading, List.append_assoc]
    rfl
  | quoted =>
    show table.toList ++ '.' :: '\x22' :: (doubleQuotes field.toList ++ ['\x22']) = _
    rw [doubleQuotes_eq, reading, List.append_assoc, List.append_assoc]
    rfl

end Equality

namespace JoinLine

/-- The text of a line, without `ON` if there is no equality. -/
def render (n : Naming) (l : JoinLine) : List Char :=
  l.kind.keyword.toList ++ ' ' :: l.name.toList ++
    if l.equalities.isEmpty then []
    else " ON ".toList ++ joinWith " AND ".toList (l.equalities.map (Equality.render n))

end JoinLine

namespace Parts

/-- The text of a statement, where a common table expression has its body on lines of its own. -/
def render (n : Naming) (p : Parts) : List Char :=
  p.token ++ ("WITH ".toList ++
    joinWith ",\n".toList (p.tables.map fun t => t.1.toList ++ " AS (\n".toList ++ t.2 ++ "\n)".toList)) ++
    '\n' :: ("SELECT ".toList ++ p.columns ++ " FROM ".toList ++ p.root.toList) ++
    p.lines.flatMap fun l => '\n' :: l.render n

/-- What an equality of the line with index `k` must be like for a condition of the join of `q`: its
right side reads from `q`, and its left side from the query that the condition names by id, which is
the root or has been joined by an earlier line. -/
structure Reads (p : Parts) (b : Blend) (k : Nat) (q : Query) (e : Equality) (c : Predicate) :
    Prop where
  target : e.target = q.name
  fields : e.sourceField = c.fromField ∧ e.targetField = c.toField
  source : ∃ m s, b.queries[m]? = some s ∧ s.id = c.fromQuery ∧ e.source = s.name ∧
    (m = 0 ∧ e.source = p.root ∨
      ∃ l earlier, m = l + 1 ∧ l < k ∧ p.lines[l]? = some earlier ∧ e.source = earlier.name)

/-- What the line with index `k` must be like: it joins the query with the next index, has no equality
if and only if the join is a cross join, and has one equality for each condition. -/
structure Joins (p : Parts) (b : Blend) (k : Nat) (line : JoinLine) (q : Query) (j : Join) :
    Prop where
  query : b.queries[k + 1]? = some q
  join : b.joinOf? q = some j
  kind : line.kind = j.kind
  name : line.name = q.name
  bare : line.equalities = [] ↔ j.kind = .cross
  equalities_length : line.equalities.length = j.predicates.length
  reads : ∀ (i : Nat) e c, line.equalities[i]? = some e → j.predicates[i]? = some c → p.Reads b k q e c

/-- All names of a statement are bound, and to what the blend means by them. -/
structure Resolves (p : Parts) (b : Blend) : Prop where
  tables : p.tables.map Prod.fst = b.queries.map Query.name
  tables_nodup : (p.tables.map Prod.fst).Nodup
  root : b.root?.map Query.name = some p.root
  lines_length : p.lines.length + 1 = b.queries.length
  lines : ∀ (k : Nat) line, p.lines[k]? = some line → ∃ q j, p.Joins b k line q j

end Parts

namespace Blend

/-- The equality that a condition of the join of `q` gives. -/
def equalityOf (b : Blend) (q : Query) (c : Predicate) : Equality where
  source := b.nameOf c.fromQuery
  sourceField := c.fromField
  target := q.name
  targetField := c.toField

def lineOf (b : Blend) (e : Query × Join) : JoinLine where
  kind := e.2.kind
  name := e.1.name
  equalities := if e.2.isUnconditional then [] else e.2.predicates.map (b.equalityOf e.1)

/-- The common table expressions of queries with their SQL, by name and body. -/
def tablesOf : (queries : List Query) → (raws : List (List Char)) → List (String × List Char)
  | [], _ => []
  | q :: qs, raws => (q.name, body q (raws.headD [])) :: tablesOf qs raws.tail

def parts (b : Blend) (dialect : Dialect) (token : Option String) (raws : List (List Char)) :
    Parts where
  token := tokenLine token
  tables := tablesOf b.queries raws
  columns := projections dialect.naming (b.columns dialect.naming)
  root := (b.root?.map Query.name).getD ""
  lines := b.joined.map b.lineOf

variable {b : Blend}

/-! ## The text -/

theorem tablesOf_map_fst (qs : List Query) (raws : List (List Char)) :
    (tablesOf qs raws).map Prod.fst = qs.map Query.name := by
  induction qs generalizing raws with
  | nil => rfl
  | cons q qs ih => rw [tablesOf, List.map_cons, List.map_cons, ih]

theorem tablesOf_map_expression (qs : List Query) (raws : List (List Char)) :
    (tablesOf qs raws).map (fun t => t.1.toList ++ " AS (\n".toList ++ t.2 ++ "\n)".toList) =
      expressions qs raws := by
  induction qs generalizing raws with
  | nil => rfl
  | cons q qs ih => rw [tablesOf, expressions, List.map_cons, ih, expression]

theorem equality_eq_render (b : Blend) (n : Naming) (q : Query) (c : Predicate) :
    equality n (b.nameOf c.fromQuery).toList q.name.toList c = (b.equalityOf q c).render n := by
  rw [equality, Equality.getter_eq_reading, Equality.getter_eq_reading]
  rfl

theorem rootName_eq (b : Blend) : b.rootName = ((b.root?.map Query.name).getD "").toList := by
  rw [rootName]
  cases b.root? <;> rfl

/-- A line is the text of its name and equalities. -/
theorem joining_eq_render (b : Blend) (n : Naming) (e : Query × Join) :
    b.joining n e.1 e.2 = (b.lineOf e).render n := by
  obtain ⟨q, j⟩ := e
  unfold joining JoinLine.render lineOf
  by_cases hu : j.isUnconditional = true
  · simp only [hu, if_true, List.isEmpty_nil, List.append_nil]
  · have hne : (j.predicates.map (b.equalityOf q)).isEmpty = false := by
      rw [Join.isUnconditional, Bool.or_eq_true, not_or] at hu
      rw [List.isEmpty_map]
      exact Bool.eq_false_iff.mpr hu.2
    simp only [hu, Bool.false_eq_true, if_false, hne, List.map_map, List.append_assoc,
      Function.comp_def, equality_eq_render]

theorem joinings_eq_render (b : Blend) (n : Naming) :
    b.joinings n = (b.joined.map b.lineOf).map (JoinLine.render n) := by
  rw [joinings, List.map_map]
  exact List.map_congr_left fun e _ => b.joining_eq_render n e

theorem selection_eq (b : Blend) (n : Naming) :
    b.selection n = "SELECT ".toList ++ projections n (b.columns n) ++ " FROM ".toList ++
      ((b.root?.map Query.name).getD "").toList := by
  rw [← rootName_eq]
  rfl

theorem statement_render (b : Blend) (dialect : Dialect) (token : Option String)
    (raws : List (List Char)) :
    (b.statement dialect token raws).sql = (b.parts dialect token raws).render dialect.naming := by
  show tokenLine token ++ b.commonTables raws ++ '\n' :: b.selection dialect.naming ++
    (b.joinings dialect.naming).flatMap ('\n' :: ·) = _
  rw [commonTables, selection_eq, joinings_eq_render, ← tablesOf_map_expression, List.flatMap_map]
  rfl

/-! ## The bindings -/

theorem filterMap_getElem? {α β : Type} {f : α → Option β} {l : List α}
    (h : ∀ a ∈ l, ∃ b, f a = some b) :
    (l.filterMap f).length = l.length ∧ ∀ k : Nat, (l.filterMap f)[k]? = l[k]?.bind f := by
  induction l with
  | nil => exact ⟨rfl, fun _ => rfl⟩
  | cons a l ih =>
    obtain ⟨b, hb⟩ := h a List.mem_cons_self
    obtain ⟨hlen, hget⟩ := ih fun a' ha => h a' (List.mem_cons_of_mem _ ha)
    rw [List.filterMap_cons_some hb]
    refine ⟨by rw [List.length_cons, List.length_cons, hlen], fun k => ?_⟩
    cases k with
    | zero => exact hb.symm
    | succ k => exact hget k

/-- In a join tree no query behind the root is left out. -/
theorem joined_getElem? (h : b.IsJoinTree) :
    b.joined.length = b.queries.tail.length ∧
      ∀ k : Nat, b.joined[k]? = b.queries[k + 1]?.bind fun q => (b.joinOf? q).map (q, ·) := by
  have hsome : ∀ q ∈ b.queries.tail, ∃ e, ((b.joinOf? q).map (q, ·)) = some e := by
    intro q hq
    obtain ⟨j, hj⟩ := exists_joinOf h hq
    exact ⟨(q, j), by rw [hj, Option.map_some]⟩
  obtain ⟨hlen, hget⟩ := filterMap_getElem? hsome
  refine ⟨hlen, fun k => ?_⟩
  rw [joined, hget, List.getElem?_tail]

theorem joined_eq_some (h : b.IsJoinTree) {k : Nat} {q : Query} {j : Join} :
    b.joined[k]? = some (q, j) ↔ b.queries[k + 1]? = some q ∧ b.joinOf? q = some j := by
  rw [(joined_getElem? h).2, Option.bind_eq_some_iff]
  constructor
  · rintro ⟨q', hq', hj⟩
    obtain ⟨j', hj', he⟩ := Option.map_eq_some_iff.mp hj
    cases he
    exact ⟨hq', hj'⟩
  · rintro ⟨hq, hj⟩
    exact ⟨q, hq, by rw [hj, Option.map_some]⟩

/-- Each query but the root is joined by the line with the index in front of its own. -/
theorem lines_getElem? (h : b.IsJoinTree) {k : Nat} {q : Query} (hq : b.queries[k + 1]? = some q) :
    ∃ line, (b.joined.map b.lineOf)[k]? = some line ∧ line.name = q.name := by
  have hqt : q ∈ b.queries.tail := by
    rw [← List.getElem?_tail] at hq
    exact List.mem_of_getElem? hq
  obtain ⟨j, hj⟩ := exists_joinOf h hqt
  refine ⟨b.lineOf (q, j), ?_, rfl⟩
  rw [List.getElem?_map, (joined_eq_some h).mpr ⟨hq, hj⟩, Option.map_some]

theorem reads_of_isJoinTree (h : b.IsJoinTree) (d : Dialect) (token : Option String)
    (raws : List (List Char)) {k : Nat} {q : Query} {j : Join} (hq : b.queries[k + 1]? = some q)
    (hj : b.joinOf? q = some j) (hc : j.kind ≠ .cross) {c : Predicate} (hp : c ∈ j.predicates) :
    (b.parts d token raws).Reads b k q (b.equalityOf q c) c := by
  refine ⟨rfl, ⟨rfl, rfl⟩, ?_⟩
  obtain ⟨-, -, hbefore⟩ := h.conditions _ (joinOf?_eq_some_iff.mp hj) hc c hp
  obtain ⟨m, s, hlt, hs, hid⟩ := exists_of_precedes h.ids_nodup hq hbefore
  have hname : (b.equalityOf q c).source = s.name := by
    show b.nameOf c.fromQuery = s.name
    rw [← hid, nameOf_eq h.ids_nodup (List.mem_of_getElem? hs)]
  refine ⟨m, s, hs, hid, hname, ?_⟩
  cases m with
  | zero =>
    have hr : b.root? = some s := by rw [root?, List.head?_eq_getElem?, hs]
    refine .inl ⟨rfl, ?_⟩
    show _ = (b.root?.map Query.name).getD ""
    rw [hname, hr, Option.map_some, Option.getD_some]
  | succ l =>
    obtain ⟨earlier, he, hen⟩ := lines_getElem? h hs
    exact .inr ⟨l, earlier, rfl, by omega, he, hname.trans hen.symm⟩

theorem joins_of_isJoinTree (h : b.IsJoinTree) (d : Dialect) (token : Option String)
    (raws : List (List Char)) {k : Nat} {line : JoinLine}
    (hl : (b.parts d token raws).lines[k]? = some line) :
    ∃ q j, (b.parts d token raws).Joins b k line q j := by
  obtain ⟨⟨q, j⟩, he, rfl⟩ := Option.map_eq_some_iff.mp (List.getElem?_map ▸ hl)
  obtain ⟨hq, hj⟩ := (joined_eq_some h).mp he
  have hkind := isUnconditional_iff h hj
  have hentry := joinOf?_eq_some_iff.mp hj
  refine ⟨q, j, hq, hj, rfl, rfl, ?_, ?_, ?_⟩
  · show (if j.isUnconditional = true then [] else j.predicates.map (b.equalityOf q)) = [] ↔ _
    by_cases hc : j.kind = .cross
    · rw [if_pos (hkind.mpr hc)]
      exact ⟨fun _ => hc, fun _ => rfl⟩
    · rw [if_neg (fun hu => hc (hkind.mp hu)), List.map_eq_nil_iff]
      exact ⟨fun hn => absurd hn (h.conditions_ne_nil _ hentry hc), fun h' => absurd h' hc⟩
  · show (if j.isUnconditional = true then [] else j.predicates.map (b.equalityOf q)).length = _
    by_cases hc : j.kind = .cross
    · rw [if_pos (hkind.mpr hc), h.cross_bare _ hentry hc]
      rfl
    · rw [if_neg (fun hu => hc (hkind.mp hu)), List.length_map]
  · intro i e c hi hp
    have hc : j.kind ≠ .cross := by
      intro hc
      rw [h.cross_bare _ hentry hc] at hp
      cases hp
    have hi' : (j.predicates.map (b.equalityOf q))[i]? = some e := by
      rw [← hi]
      show _ = (if j.isUnconditional = true then [] else j.predicates.map (b.equalityOf q))[i]?
      rw [if_neg (fun hu => hc (hkind.mp hu))]
    rw [List.getElem?_map, hp, Option.map_some] at hi'
    cases hi'
    exact reads_of_isJoinTree h d token raws hq hj hc (List.mem_of_getElem? hp)

/-- **Resolution.** The statement of a valid blend opens one common table expression for each query, in
their order and with distinct names; each further query has its line; and each equality reads from the
query that is joined and from the one its condition names, which the statement has got to before. -/
theorem statement_resolved (hv : b.isValid = true) (d : Dialect) (token : Option String)
    (raws : List (List Char)) :
    ∃ p : Parts, (b.statement d token raws).sql = p.render d.naming ∧
      b.joinings d.naming = p.lines.map (JoinLine.render d.naming) ∧ p.Resolves b := by
  have h := isJoinTree_of_isValid hv
  have htables := tablesOf_map_fst b.queries raws
  refine ⟨b.parts d token raws, b.statement_render d token raws, b.joinings_eq_render d.naming,
    htables, htables ▸ h.names_nodup, ?_, ?_, fun k line hl => joins_of_isJoinTree h d token raws hl⟩
  · obtain ⟨root, hr⟩ := exists_root h
    show _ = some ((b.root?.map Query.name).getD "")
    rw [hr, Option.map_some, Option.getD_some]
  · show (b.joined.map b.lineOf).length + 1 = _
    rw [List.length_map, (joined_getElem? h).1, List.length_tail]
    have := List.length_pos_iff.mpr h.queries_ne_nil
    omega

theorem statement_resolved_trio :
    ∃ p : Parts, (trio.statement .bigQuery (some "t") [[]]).sql = p.render .flattened ∧
      trio.joinings .flattened = p.lines.map (JoinLine.render .flattened) ∧ p.Resolves trio :=
  statement_resolved isValid_trio .bigQuery (some "t") [[]]

end Blend
end QueryBlend
