import QueryBlend.Proofs.JoinTree
import QueryBlend.Proofs.Sql.TopText
import QueryBlend.Statement
/-!
# Queries do not leak into the blended statement

Whatever closed texts the queries have, the blended statement is read in the same way from outside: the
texts stay inside the parentheses of their common table expressions, and what is around them stays
outside.

**The parts.** A common table expression is a plain name, ` AS ` and a wrapped body, and leaves a scan
where it was (`runTo_expression`). What follows the common table expressions is made of plain text and
quoted names (`passes_outer`): the names of the queries are aliases, and no field has a backslash.

**The whole.** A scan gets past any number of common table expressions (`runTo_commonTables`), of which
it takes only the names for top-level code (`topTo_commonTables`).

* `statement_isolated`: the statement is closed, no byte of a body is top-level code, and the bytes
  that are top-level code do not depend on the texts.
-/
namespace QueryBlend.Blend
open Text Sql

/-- Neither a field of a query nor a field of a condition has a backslash. -/
structure IsUnescaped (b : Blend) : Prop where
  fields : ∀ q ∈ b.queries, ∀ f ∈ q.fields, '\\' ∉ f.id.toList
  conditions : ∀ e ∈ b.joins.entries, ∀ p ∈ e.2.predicates,
    '\\' ∉ p.fromField.toList ∧ '\\' ∉ p.toField.toList

/-- What follows the common table expressions. -/
def outer (b : Blend) (n : Naming) : List Char :=
  '\n' :: b.selection n ++ (b.joinings n).flatMap ('\n' :: ·)

/-- What is in front of the common table expression with an index. -/
def aheadOf (b : Blend) (raws : List (List Char)) (k : Nat) : List Char :=
  "WITH ".toList ++ (expressions (b.queries.take k) raws).flatMap (· ++ ",\n".toList)

/-- What is in front of the body with an index. -/
def opening (b : Blend) (raws : List (List Char)) (k : Nat) (q : Query) : List Char :=
  b.aheadOf raws k ++ q.name.toList ++ " AS (\n".toList

variable {b : Blend}

/-! ## Names -/

theorem isPlain_of_isAliasText {s : List Char} (h : IsAliasText s) : s.all isPlain = true := by
  obtain ⟨c, cs, rfl, hc, hcs⟩ := h
  have small {d : Char} (hd : 'a' ≤ d ∧ d ≤ 'z') : isPlain d = true := by
    rw [isPlain_iff]
    refine ⟨?_, ?_, ?_, ?_, ?_, ?_, ?_, ?_⟩ <;> rintro rfl <;> revert hd <;> decide
  have digit {d : Char} (hd : '0' ≤ d ∧ d ≤ '9') : isPlain d = true := by
    rw [isPlain_iff]
    refine ⟨?_, ?_, ?_, ?_, ?_, ?_, ?_, ?_⟩ <;> rintro rfl <;> revert hd <;> decide
  rw [List.all_cons, small hc, Bool.true_and, List.all_eq_true]
  intro d hd
  rcases hcs d hd with h | h | rfl
  · exact small h
  · exact digit h
  · decide

theorem not_mem_backslash {s : List Char} (h : IsAliasText s) : '\\' ∉ s := by
  obtain ⟨c, cs, rfl, hc, hcs⟩ := h
  intro hm
  rcases List.mem_cons.mp hm with rfl | hm
  · revert hc; decide
  · rcases hcs _ hm with h | h | h <;> revert h <;> decide

theorem passes_alias {s : List Char} (h : IsAliasText s) : Passes s :=
  passes_plain (isPlain_of_isAliasText h)

theorem passes_getter {name field : List Char} (hn : IsAliasText name) (hf : '\\' ∉ field) :
    Passes (Naming.quoted.getter name field) := by
  have hd : ['.'].all isPlain = true := by decide
  exact .plain_append (isPlain_of_isAliasText hn) (.plain_append hd (passes_quote hf))

theorem passes_column {name field : List Char} (hn : IsAliasText name) (hf : '\\' ∉ field) :
    Passes (Naming.quoted.column name field) := by
  refine passes_quote fun hm => ?_
  rcases List.mem_append.mp hm with hm | hm
  · exact not_mem_backslash hn hm
  · rcases List.mem_cons.mp hm with h | hm
    · exact absurd h (by decide)
    · exact hf hm

/-! ## Behind the common table expressions -/

theorem passes_projections (h : b.IsJoinTree) (hu : b.IsUnescaped) :
    Passes (projections .quoted (b.columns .quoted)) := by
  have hall : "*".toList.all isPlain = true := by decide
  have hsep : ", ".toList.all isPlain = true := by decide
  have has : " AS ".toList.all isPlain = true := by decide
  unfold projections
  split
  · exact passes_plain hall
  · refine .joinWith hsep (by decide) fun t ht => ?_
    obtain ⟨c, hc, rfl⟩ := List.mem_map.mp ht
    obtain ⟨q, hq, hcq⟩ := List.mem_flatMap.mp hc
    obtain ⟨f, hf, rfl⟩ := List.mem_map.mp hcq
    have hn := h.names_alias q hq
    have hb := hu.fields q hq f hf
    exact (passes_getter hn hb).between has (by decide) (passes_column hn hb)

theorem passes_selection (h : b.IsJoinTree) (hu : b.IsUnescaped) :
    Passes (b.selection .quoted) := by
  have hselect : "SELECT ".toList.all isPlain = true := by decide
  have hfrom : " FROM ".toList.all isPlain = true := by decide
  have hroot : Passes b.rootName := by
    obtain ⟨root, hr⟩ := exists_root h
    rw [rootName, hr]
    exact passes_alias (h.names_alias root (List.mem_of_head? hr))
  have hcolumns : Passes ("SELECT ".toList ++ projections .quoted (b.columns .quoted)) :=
    .plain_append hselect (passes_projections h hu)
  exact hcolumns.between hfrom (by decide) hroot

theorem passes_equality (h : b.IsJoinTree) (hu : b.IsUnescaped) {e : String × Join}
    (he : e ∈ b.joins.entries) (hc : e.2.kind ≠ .cross) {p : Predicate} (hp : p ∈ e.2.predicates)
    {target : List Char} (ht : IsAliasText target) :
    Passes (equality .quoted (b.nameOf p.fromQuery).toList target p) := by
  obtain ⟨-, -, i, k, -, hi, -⟩ := h.conditions e he hc p hp
  obtain ⟨s, hs, hid⟩ := List.mem_map.mp (List.mem_of_getElem? hi)
  have hname : IsAliasText (b.nameOf p.fromQuery).toList := by
    rw [← hid, nameOf_eq h.ids_nodup hs]
    exact h.names_alias s hs
  have heq : " = ".toList.all isPlain = true := by decide
  obtain ⟨hfrom, hto⟩ := hu.conditions e he p hp
  exact (passes_getter hname hfrom).between heq (by decide) (passes_getter ht hto)

theorem isPlain_keyword (t : JoinKind) : t.keyword.toList.all isPlain = true := by
  cases t <;> decide

theorem passes_joining (h : b.IsJoinTree) (hu : b.IsUnescaped) {q : Query} {j : Join}
    (hq : q ∈ b.queries) (hj : b.joinOf? q = some j) : Passes (b.joining .quoted q j) := by
  have he := joinOf?_eq_some_iff.mp hj
  have hn := h.names_alias q hq
  have hblank : [' '].all isPlain = true := by decide
  have hhead : Passes (j.kind.keyword.toList ++ ' ' :: q.name.toList) :=
    .plain_append (isPlain_keyword j.kind) (.plain_append hblank (passes_alias hn))
  have hon : " ON ".toList.all isPlain = true := by decide
  have hand : " AND ".toList.all isPlain = true := by decide
  unfold joining
  simp only []
  split
  · exact hhead
  · rename_i hcond
    have hc : j.kind ≠ .cross := fun hc => hcond ((isUnconditional_iff h hj).mpr hc)
    refine hhead.between hon (by decide) (.joinWith hand (by decide) fun t ht => ?_)
    obtain ⟨p, hp, rfl⟩ := List.mem_map.mp ht
    exact passes_equality h hu he hc hp hn

theorem passes_lines {ls : List (List Char)} (h : ∀ l ∈ ls, Passes l) :
    Passes (ls.flatMap ('\n' :: ·)) := by
  have hfeed : ['\n'].all isPlain = true := by decide
  induction ls with
  | nil => exact passes_nil
  | cons l ls ih =>
    rw [List.flatMap_cons]
    have hl : Passes (['\n'] ++ l) := .plain_append hfeed (h l List.mem_cons_self)
    refine hl.append (ih fun l' hl => h l' (List.mem_cons_of_mem _ hl)) ?_
    cases ls <;> simp

theorem passes_outer (h : b.IsJoinTree) (hu : b.IsUnescaped) : Passes (b.outer .quoted) := by
  have hfeed : ['\n'].all isPlain = true := by decide
  have hlines : ∀ l ∈ b.joinings .quoted, Passes l := by
    intro l hl
    obtain ⟨⟨q, j⟩, hm, rfl⟩ := List.mem_map.mp hl
    obtain ⟨hq, hj⟩ := JoinGraph.mem_joined.mp hm
    exact passes_joining h hu (List.mem_of_mem_tail hq) hj
  have hselection : Passes (['\n'] ++ b.selection .quoted) :=
    .plain_append hfeed (passes_selection h hu)
  refine hselection.append (passes_lines hlines) ?_
  cases b.joinings .quoted <;> simp

/-! ## Common table expressions -/

theorem isClosed_body {raw : List Char} (h : isClosed raw = true) (q : Query) :
    isClosed (body q raw) = true := isClosed_orNotice (isClosed_stripTrailing h q.respectLimit)

theorem expression_eq (name inner : List Char) :
    expression name inner = name ++ " AS ".toList ++ wrapped inner := by
  simp [expression, wrapped]

theorem isPlain_name_as {name : List Char} (h : IsAliasText name) :
    (name ++ " AS ".toList).all isPlain = true := by
  have has : " AS ".toList.all isPlain = true := by decide
  rw [List.all_append, isPlain_of_isAliasText h, has, Bool.and_self]

/-- A common table expression leaves a scan where it was, whatever is behind it. -/
theorem runTo_expression {name inner : List Char} (hn : IsAliasText name)
    (hi : isClosed inner = true) (next : Option Char) :
    runTo next (codeAt 0) (expression name inner) = codeAt 0 := by
  rw [expression_eq, runTo_append, runTo_plain (isPlain_name_as hn), runTo_wrapped hi]

/-- Of a common table expression only the name is top-level code. -/
theorem topTo_expression {name inner : List Char} (hn : IsAliasText name)
    (hi : isClosed inner = true) (next : Option Char) :
    topTo next (codeAt 0) (expression name inner) = name ++ " AS ".toList := by
  rw [expression_eq, topTo_append, runTo_plain (isPlain_name_as hn), topTo_wrapped hi,
    topTo_plain (isPlain_name_as hn), List.append_nil]

theorem isPlain_comma : ",\n".toList.all isPlain = true := by decide

theorem isClosed_headD {raws : List (List Char)} (h : ∀ raw ∈ raws, isClosed raw = true) :
    isClosed (raws.headD []) = true := by
  cases raws with
  | nil => rfl
  | cons raw _ => exact h raw List.mem_cons_self

theorem runTo_joinWith_expressions {qs : List Query} (hqs : ∀ q ∈ qs, IsAliasText q.name.toList)
    {raws : List (List Char)} (hraws : ∀ raw ∈ raws, isClosed raw = true) (next : Option Char) :
    runTo next (codeAt 0) (joinWith ",\n".toList (expressions qs raws)) = codeAt 0 := by
  induction qs generalizing raws with
  | nil => rfl
  | cons q qs ih =>
    have he := runTo_expression (hqs q List.mem_cons_self) (isClosed_body (isClosed_headD hraws) q)
    cases qs with
    | nil => exact he next
    | cons q' qs =>
      rw [expressions, expressions, joinWith, List.append_assoc, runTo_append, he, runTo_append,
        runTo_plain isPlain_comma]
      exact ih (fun q' hq' => hqs q' (List.mem_cons_of_mem _ hq'))
        fun raw hraw => hraws raw (List.mem_of_mem_tail hraw)

theorem topTo_joinWith_expressions {qs : List Query} (hqs : ∀ q ∈ qs, IsAliasText q.name.toList)
    {raws : List (List Char)} (hraws : ∀ raw ∈ raws, isClosed raw = true) (next : Option Char) :
    topTo next (codeAt 0) (joinWith ",\n".toList (expressions qs raws)) =
      joinWith ",\n".toList (qs.map fun q => q.name.toList ++ " AS ".toList) := by
  induction qs generalizing raws with
  | nil => rfl
  | cons q qs ih =>
    have hn := hqs q List.mem_cons_self
    have hc := isClosed_body (isClosed_headD hraws) q
    cases qs with
    | nil => exact topTo_expression hn hc next
    | cons q' qs =>
      have hrest := ih (fun q' hq' => hqs q' (List.mem_cons_of_mem _ hq'))
        fun raw hraw => hraws raw (List.mem_of_mem_tail hraw)
      rw [expressions] at hrest
      rw [expressions, expressions, joinWith, List.append_assoc, topTo_append, runTo_expression hn hc,
        topTo_expression hn hc, topTo_append, runTo_plain isPlain_comma, topTo_plain isPlain_comma,
        hrest, ← List.append_assoc]
      rfl

theorem runTo_flatMap_expressions {qs : List Query} (hqs : ∀ q ∈ qs, IsAliasText q.name.toList)
    {raws : List (List Char)} (hraws : ∀ raw ∈ raws, isClosed raw = true) (next : Option Char) :
    runTo next (codeAt 0) ((expressions qs raws).flatMap (· ++ ",\n".toList)) = codeAt 0 := by
  induction qs generalizing raws with
  | nil => rfl
  | cons q qs ih =>
    have hc := isClosed_body (isClosed_headD hraws) q
    rw [expressions, List.flatMap_cons, List.append_assoc, runTo_append,
      runTo_expression (hqs q List.mem_cons_self) hc, runTo_append, runTo_plain isPlain_comma]
    exact ih (fun q' hq' => hqs q' (List.mem_cons_of_mem _ hq'))
      fun raw hraw => hraws raw (List.mem_of_mem_tail hraw)

/-- The common table expression with an index, between those in front of it and the rest. -/
theorem joinWith_expressions_split (qs : List Query) (raws : List (List Char)) {k : Nat} {q : Query}
    (hq : qs[k]? = some q) :
    ∃ behind, joinWith ",\n".toList (expressions qs raws) =
      (expressions (qs.take k) raws).flatMap (· ++ ",\n".toList) ++
        expression q.name.toList (body q (raws.getD k [])) ++ behind := by
  induction qs generalizing raws k with
  | nil => cases hq
  | cons q' qs ih =>
    cases k with
    | zero =>
      cases hq
      have hraw : raws.getD 0 [] = raws.headD [] := by cases raws <;> rfl
      rw [hraw, List.take_zero, expressions]
      cases qs with
      | nil => exact ⟨[], (List.append_nil _).symm⟩
      | cons q'' qs => exact ⟨_, List.append_assoc _ _ _⟩
    | succ k =>
      obtain ⟨behind, hb⟩ := ih raws.tail hq
      have hraw : raws.getD (k + 1) [] = raws.tail.getD k [] := by cases raws <;> rfl
      refine ⟨behind, ?_⟩
      rw [List.take_succ_cons, expressions, expressions, List.flatMap_cons, hraw, List.append_assoc,
        List.append_assoc, ← List.append_assoc (List.flatMap _ _), ← hb]
      cases qs with
      | nil => cases hq
      | cons q'' qs => rfl

/-! ## The statement -/

theorem statement_sql (b : Blend) (d : Dialect) (raws : List (List Char)) :
    (b.statement d none raws).sql = b.commonTables raws ++ b.outer d.naming := by
  show [] ++ b.commonTables raws ++ '\n' :: b.selection d.naming ++
    (b.joinings d.naming).flatMap ('\n' :: ·) = _
  rw [List.nil_append, List.append_assoc]
  rfl

theorem isPlain_with : "WITH ".toList.all isPlain = true := by decide

theorem runTo_commonTables (h : b.IsJoinTree) {raws : List (List Char)}
    (hraws : ∀ raw ∈ raws, isClosed raw = true) (next : Option Char) :
    runTo next (codeAt 0) (b.commonTables raws) = codeAt 0 := by
  unfold commonTables
  rw [runTo_append, runTo_plain isPlain_with, runTo_joinWith_expressions h.names_alias hraws]

theorem topTo_commonTables (h : b.IsJoinTree) {raws : List (List Char)}
    (hraws : ∀ raw ∈ raws, isClosed raw = true) (next : Option Char) :
    topTo next (codeAt 0) (b.commonTables raws) = "WITH ".toList ++
      joinWith ",\n".toList (b.queries.map fun q => q.name.toList ++ " AS ".toList) := by
  unfold commonTables
  rw [topTo_append, runTo_plain isPlain_with, topTo_plain isPlain_with,
    topTo_joinWith_expressions h.names_alias hraws]

/-- Behind the opening of a body the scan is inside of one parenthesis. -/
theorem runTo_opening (h : b.IsJoinTree) {raws : List (List Char)}
    (hraws : ∀ raw ∈ raws, isClosed raw = true) {k : Nat} {q : Query} (hq : b.queries[k]? = some q)
    (next : Option Char) : runTo next (codeAt 0) (b.opening raws k q) = codeAt 1 := by
  have htake : ∀ q ∈ b.queries.take k, IsAliasText q.name.toList :=
    fun q hq => h.names_alias q (List.mem_of_mem_take hq)
  have hname := isPlain_of_isAliasText (h.names_alias q (List.mem_of_getElem? hq))
  unfold opening aheadOf
  rw [List.append_assoc, List.append_assoc, runTo_append, runTo_plain isPlain_with, runTo_append,
    runTo_flatMap_expressions htake hraws, runTo_append, runTo_plain hname]
  simp [runTo, State.step, codeAt]

theorem topTo_statement (h : b.IsJoinTree) (d : Dialect) {raws : List (List Char)}
    (hraws : ∀ raw ∈ raws, isClosed raw = true) :
    topTo none {} (b.statement d none raws).sql = ("WITH ".toList ++
      joinWith ",\n".toList (b.queries.map fun q => q.name.toList ++ " AS ".toList)) ++
        topTo none {} (b.outer d.naming) := by
  rw [statement_sql, ← codeAt_zero, topTo_append, runTo_commonTables h hraws,
    topTo_commonTables h hraws]

/-- **Isolation.** With closed texts for its queries the blended statement of a valid blend ends in
code outside of all parentheses; no byte of the body of a common table expression is top-level code;
and the bytes that are top-level code are those of the statement with an empty text for each text. -/
theorem statement_isolated (hv : b.isValid = true) (hu : b.IsUnescaped) {d : Dialect}
    (hd : d.naming = .quoted) {raws : List (List Char)} (hraws : ∀ raw ∈ raws, isClosed raw = true) :
    let sql := (b.statement d none raws).sql
    run sql = {} ∧
      (∀ k q, b.queries[k]? = some q → ∃ behind,
        sql = b.opening raws k q ++ body q (raws.getD k []) ++ behind ∧
          ∀ i < byteCount (body q (raws.getD k [])),
            (byteMask sql)[byteCount (b.opening raws k q) + i]? = some false) ∧
      topBytes sql = topBytes (b.statement d none (raws.map fun _ => [])).sql := by
  have h := isJoinTree_of_isValid hv
  intro sql
  refine ⟨?_, fun k q hq => ?_, ?_⟩
  · show run (b.statement d none raws).sql = {}
    rw [statement_sql, run, ← codeAt_zero, runTo_append, runTo_commonTables h hraws, hd]
    exact passes_outer h hu 0 none (by simp)
  · have hbody : isClosed (body q (raws.getD k [])) = true := by
      refine isClosed_body ?_ q
      rw [List.getD_eq_getElem?_getD]
      cases hk : raws[k]? with
      | none => rfl
      | some raw => exact hraws raw (List.mem_of_getElem? hk)
    obtain ⟨rest, hsplit⟩ := joinWith_expressions_split b.queries raws hq
    have hsql : sql = b.opening raws k q ++ body q (raws.getD k []) ++
        ("\n)".toList ++ rest ++ b.outer d.naming) := by
      show (b.statement d none raws).sql = _
      unfold opening aheadOf
      rw [statement_sql]
      unfold commonTables
      rw [hsplit]
      unfold expression
      simp only [List.append_assoc]
    refine ⟨_, hsql, ?_⟩
    · intro i hi
      have hrun := runTo_opening h hraws hq
      rw [codeAt_zero] at hrun
      have hmask := byteMask_middle (b.opening raws k q) (body q (raws.getD k []))
        ("\n)".toList ++ rest ++ b.outer d.naming) (by rw [hrun, maskTo_closed hbody]) hi
      rw [← hsql] at hmask
      rw [hmask, spread_replicate, List.getElem?_replicate, if_pos hi]
  · show topBytes (b.statement d none raws).sql = _
    have hempty : ∀ raw ∈ raws.map fun _ => ([] : List Char), isClosed raw = true := by
      intro raw hraw
      obtain ⟨_, -, rfl⟩ := List.mem_map.mp hraw
      rfl
    rw [topBytes_eq_encode, topBytes_eq_encode, topTo_statement h d hraws, topTo_statement h d hempty]

/-- A text for the first query of the trio, and one for the second. -/
def trioTexts : List (List Char) :=
  ["SELECT ')' AS a FROM t ORDER BY a -- first".toList, "SELECT \"(\" FROM t LIMIT (1);".toList]

theorem isUnescaped_trio : trio.IsUnescaped := ⟨by decide, by decide⟩

theorem isClosed_trioTexts : ∀ raw ∈ trioTexts, isClosed raw = true := by decide

theorem statement_isolated_trio :
    run (trio.statement .postgres none trioTexts).sql = {} ∧
      topBytes (trio.statement .postgres none trioTexts).sql =
        topBytes (trio.statement .postgres none [[], []]).sql := by
  have h := statement_isolated isValid_trio isUnescaped_trio (d := .postgres) rfl isClosed_trioTexts
  exact ⟨h.1, h.2.2⟩

end QueryBlend.Blend
