import QueryBlend.Proofs.Request.Isolation
import QueryBlend.Proofs.Segments
import QueryBlend.Proofs.Statement.Comments
import QueryBlend.Proofs.Statement.Resolution
/-!
# What stands for the SQL of a query

A query that cannot be found and a query whose pivot is not supported get a comment for a body. The
comment goes the way of any other SQL, but nothing on this way takes it for more than a comment.

**Its line.** The comment has one line. For a missing query that is asked of its id; the names in a refusal
are read from one line of the pivot (`feed_notMem_listedNames`). A line comment that does not end in a
semicolon or a blank is not stripped of anything, whatever clauses it speaks of (`stripTrailing_comment`).

**On stable views.** Of the comments that say something about the parts of a query this is none, so the
notice for a missing query is its own select (`stableSelect_line`), unless its id names the rank of a
pivot. A refusal is put in behind this step.

**Its place.** What a source answers may depend on effects, so what holds of the answers is said of the
action that gives them (`Gives`). What holds of the SQL that is fetched for a query decides the body that
the query gets (`compile_body`).

* `compile_placeholders`: the body of a missing query is the notice with its id, and the body of a query
  with an unsupported pivot is the refusal.
-/
namespace QueryBlend
open Text Sql

/-! ## What texts are made of -/

/-- A text without a certain character occurs in front of it or behind it, if it occurs at all. -/
theorem infix_of_infix_append_cons {w s t : List Char} {c : Char} (hc : c ∉ w) (h : w <:+: s ++ c :: t) :
    w <:+: s ∨ w <:+: t := by
  have hhead {u : List Char} (hu : u <+: c :: t) (hcu : c ∉ u) : u = [] := by
    cases u with
    | nil => rfl
    | cons d u =>
      rw [(List.cons_prefix_cons.mp hu).1] at hcu
      exact absurd List.mem_cons_self hcu
  rcases List.infix_append_iff.mp h with hs | ht | ⟨u, v, rfl, hu, hv⟩
  · exact .inl hs
  · rcases List.infix_cons_iff.mp ht with hp | ht
    · rw [hhead hp hc]
      exact .inl List.nil_infix
    · exact .inr ht
  · rw [hhead hv fun hcv => hc (List.mem_append_right u hcv), List.append_nil]
    exact .inl hu.isInfix

/-! ## The names in a refusal -/

namespace Pivot

variable {start stop : Form} {s t name : List Char}

theorem feed_notMem_upTo? (h : upTo? stop s = some t) : '\n' ∉ t := by
  induction s generalizing t with
  | nil => cases h
  | cons c cs ih =>
    rw [upTo?] at h
    split at h
    · cases h
      exact List.not_mem_nil
    · split at h
      · cases h
      · next hc =>
        obtain ⟨u, hu, rfl⟩ := Option.map_eq_some_iff.mp h
        rw [List.mem_cons, not_or]
        exact ⟨Ne.symm hc, ih hu⟩

theorem feed_notMem_between? (h : between? start stop s = some t) : '\n' ∉ t := by
  induction s with
  | nil => cases h
  | cons c cs ih =>
    rw [between?, Option.or_eq_some_iff] at h
    rcases h with h | ⟨-, h⟩
    · obtain ⟨rest, -, hrest⟩ := Option.bind_eq_some_iff.mp h
      exact feed_notMem_upTo? hrest
    · exact ih h

theorem mem_of_mem_namesOfPieces {pieces : List (List Char)} (h : name ∈ namesOfPieces pieces) :
    name ∈ pieces := by
  fun_induction namesOfPieces pieces with
  | case1 p q rest _ ih => exact List.mem_cons_of_mem p (ih h)
  | case2 p q rest _ ih =>
    rcases List.mem_cons.mp h with rfl | h
    · exact List.mem_cons_self
    · exact List.mem_cons_of_mem p (List.mem_cons_of_mem q (ih h))
  | case3 => cases h

/-- A dimension is named in one line. -/
theorem feed_notMem_listedNames (h : name ∈ listedNames start stop s) : '\n' ∉ name := by
  unfold listedNames at h
  split at h
  · next list hlist =>
    rw [distinctSorted, List.mem_mergeSort, List.mem_eraseDups] at h
    have hpiece := List.mem_of_mem_tail (mem_of_mem_namesOfPieces h)
    exact fun hfeed => feed_notMem_between? hlist (mem_of_mem_splitOn hpiece hfeed).2
  · cases h

theorem exists_names_of_flatSelect {wrapper : List Char} {e : UnsupportedPivot}
    (h : flatSelect wrapper = .error e) : e = ⟨rowNames wrapper, columnNames wrapper⟩ := by
  unfold flatSelect at h
  split at h
  · cases h
  · simp only [] at h
    split at h
    · cases h
      rfl
    · cases h

end Pivot

theorem exists_names_of_parse {raw : List Char} {e : UnsupportedPivot}
    (h : Segments.parse raw = .error e) :
    ∃ wrapper, e = ⟨Pivot.rowNames wrapper, Pivot.columnNames wrapper⟩ := by
  cases hw : Pivot.isWrapped (Segments.split raw).select with
  | false =>
    rw [parse_of_not_wrapped hw] at h
    cases h
  | true =>
    cases hflat : Pivot.flatSelect (Segments.split raw).select with
    | ok flat =>
      simp only [Segments.parse, hw, hflat] at h
      cases h
    | error e' =>
      simp only [Segments.parse, hw, hflat] at h
      cases h
      exact ⟨_, Pivot.exists_names_of_flatSelect hflat⟩

/-! ## Comments as bodies -/

namespace Request

variable {r : Request} {q : Query} {raw id : String} {e : UnsupportedPivot}

theorem feed_notMem_refusal (h : Segments.parse raw.toList = .error e) : '\n' ∉ refusal e := by
  obtain ⟨wrapper, rfl⟩ := exists_names_of_parse h
  have hnames {names : List (List Char)} (hn : ∀ name ∈ names, '\n' ∉ name) :
      '\n' ∉ joinWith ", ".toList names := fun hfeed => by
    rcases mem_joinWith hfeed with hsep | ⟨name, hname, hfeed⟩
    · exact absurd hsep (by decide)
    · exact hn name hname hfeed
  have hrows := hnames fun name (h : name ∈ Pivot.rowNames wrapper) => Pivot.feed_notMem_listedNames h
  have hcolumns := hnames fun name (h : name ∈ Pivot.columnNames wrapper) =>
    Pivot.feed_notMem_listedNames h
  unfold refusal UnsupportedPivot.message
  simp only [List.mem_append, not_or]
  exact ⟨by decide, ⟨⟨⟨by decide +kernel, hrows⟩, by decide⟩, hcolumns⟩, by decide⟩

def refusalText (e : UnsupportedPivot) : List Char := " Error: ".toList ++ e.message

theorem refusal_eq (e : UnsupportedPivot) : refusal e = '-' :: '-' :: refusalText e := by
  have hstart : "-- Error: ".toList = '-' :: '-' :: " Error: ".toList := rfl
  unfold refusal refusalText
  rw [hstart, List.cons_append, List.cons_append]

/-- A refusal becomes the body of a common table expression as it is. -/
theorem body_refusal (h : '\n' ∉ refusal e) (q : Query) : Blend.body q (refusal e) = refusal e := by
  have hlast : (refusalText e).getLast? = some ']' := by
    unfold refusalText UnsupportedPivot.message
    rw [← List.append_assoc, List.getLast?_append]
    rfl
  rw [refusal_eq] at h ⊢
  have hfeed : '\n' ∉ refusalText e := fun hf => h (List.mem_cons_of_mem _ (List.mem_cons_of_mem _ hf))
  exact Blend.body_comment hfeed hlast (by decide) rfl rfl q

/-- With its pivot refused, a query has the refusal for a body. -/
theorem bodyOf_refused (hstable : r.stableViews = true) (h : Segments.parse raw.toList = .error e)
    (q : Query) : r.bodyOf q raw = refusal e := by
  have hselect : stableSelect raw.toList = .error e := by
    rw [stableSelect, h]
    rfl
  have hprepare : prepare r.stableViews raw = refusal e := by
    simp only [prepare, hstable, if_true, hselect]
  rw [bodyOf, hprepare, body_refusal (feed_notMem_refusal h)]

/-- One line that says nothing about the parts is its own select. -/
theorem stableSelect_line {s : List Char} (hfeed : '\n' ∉ s) (hplain : LineKind.ofLine s = .plain)
    (hrank : Pivot.isWrapped s = false) : stableSelect s = .ok s := by
  have hsplit : Segments.split s = { select := s } := by
    refine split_of_plain fun l hl => .inl ?_
    rw [lines_of_not_mem hfeed, List.mem_singleton] at hl
    rwa [hl]
  have hparse : Segments.parse s = .ok { select := s } := by
    rw [parse_of_not_wrapped (by rwa [hsplit]), hsplit]
  rw [stableSelect, hparse]
  rfl

theorem isWrapped_missingSql (h : ¬ Pivot.rankColumn <:+: id.toList) :
    Pivot.isWrapped (missingSql id).toList = false := by
  rw [Pivot.isWrapped, ← Bool.not_eq_true, hasPart_iff]
  -- the name of the rank has neither the blank in front of the id nor the comma behind it
  have hfront : " INVALID_QUERY_ID: ".toList = " INVALID_QUERY_ID:".toList ++ [' '] := rfl
  have hend : Blend.noticeEnd =
      ',' :: " couldn't generate SQL. Please contact your BI administrator.".toList := by
    decide +kernel
  have hcut : (missingSql id).toList = '-' :: '-' :: " INVALID_QUERY_ID:".toList ++
      ' ' :: (id.toList ++ Blend.noticeEnd) := by
    rw [Blend.missingSql_toList]
    unfold Blend.noticeText
    rw [hfront]
    simp only [List.append_assoc, List.cons_append, List.nil_append]
  rw [hcut, hend]
  intro hwrapped
  rcases infix_of_infix_append_cons (by decide) hwrapped with hstart | hbehind
  · exact absurd hstart (by decide)
  · rcases infix_of_infix_append_cons (by decide) hbehind with hid | hrest
    · exact h hid
    · exact absurd hrest (by decide +kernel)

/-- The notice for a query that is missing is its body. -/
theorem bodyOf_missing (hfeed : '\n' ∉ id.toList) (hrank : ¬ Pivot.rankColumn <:+: id.toList)
    (q : Query) : r.bodyOf q (missingSql id) = (missingSql id).toList := by
  have hnotice : '\n' ∉ (missingSql id).toList := by
    rw [Blend.missingSql_toList, List.mem_cons, List.mem_cons, Blend.feed_mem_noticeText]
    simpa using hfeed
  have hselect : stableSelect (missingSql id).toList = .ok (missingSql id).toList :=
    stableSelect_line hnotice (by rw [Blend.missingSql_toList]; rfl) (isWrapped_missingSql hrank)
  have hprepare : prepare r.stableViews (missingSql id) = (missingSql id).toList := by
    unfold prepare
    rw [hselect]
    exact ite_self _
  rw [bodyOf, hprepare, Blend.body_missingSql hfeed]

/-! ## Their place -/

/-- The statement is that of the request, but for the bodies of its common table expressions; that of the
query with index `i` is `inner`. -/
def HasBody (r : Request) (i : Nat) (inner : List Char) (out : Compiled) : Prop :=
  ∃ tables : List (String × List Char), tables.map Prod.fst = r.blend.queries.map Query.name ∧
    (tables.map Prod.snd)[i]? = some inner ∧
    out.sql = Parts.render out.dialect.naming
      { r.blend.parts out.dialect r.token [] with tables := tables }

/-- What a request is compiled to, if it is compiled, has the body `inner` for the query with index `i`. -/
def GivesBody (r : Request) (i : Nat) (inner : List Char) (res : Except RequestProblem Compiled) : Prop :=
  ∃ out, res = .ok out ∧ r.HasBody i inner out

variable {i : Nat} {format : Sql.Formatter}

theorem tablesOf_getElem? {qs : List Query} (hq : qs[i]? = some q) (raws : List (List Char)) :
    ((Blend.tablesOf qs raws).map Prod.snd)[i]? = some (Blend.body q (raws.getD i [])) := by
  induction qs generalizing i raws with
  | nil => cases hq
  | cons first qs ih =>
    cases i with
    | zero =>
      cases hq
      cases raws <;> rfl
    | succ i =>
      have htail : raws.getD (i + 1) [] = raws.tail.getD i [] := by cases raws <;> rfl
      rw [htail]
      exact ih hq raws.tail

theorem finish_hasBody (hpretty : r.pretty = false) (hq : r.blend.queries[i]? = some q) (d : Dialect)
    {raws : List String} (hraw : raws[i]? = some raw) :
    r.HasBody i (r.bodyOf q raw) (r.finish format d raws) := by
  refine ⟨Blend.tablesOf r.blend.queries (raws.map (prepare r.stableViews)),
    Blend.tablesOf_map_fst _ _, ?_, ?_⟩
  · rw [tablesOf_getElem? hq, List.getD_eq_getElem?_getD, List.getElem?_map, hraw]
    rfl
  · have hsql : (r.finish format d raws).sql =
        (r.blend.statement d r.token (raws.map (prepare r.stableViews))).sql := by
      simp only [finish, hpretty]
      rfl
    rw [hsql, Blend.statement_render]
    rfl

/-! ## What actions give -/

section
variable {m : Type → Type} {α β : Type} {p : α → Prop}

/-- Whatever the effects of an action are, what it gives has the property: the action is one that gives
the proof along. -/
def Gives [Monad m] (p : α → Prop) (x : m α) : Prop := ∃ y : m (Subtype p), Subtype.val <$> y = x

theorem gives_id_iff {x : Id α} : Gives p x ↔ p x :=
  ⟨fun ⟨y, hy⟩ => hy ▸ y.property, fun h => ⟨⟨x, h⟩, rfl⟩⟩

variable [Monad m] [LawfulMonad m] {x : m α}

theorem Gives.pure {a : α} (h : p a) : Gives p (pure a : m α) := ⟨Pure.pure ⟨a, h⟩, map_pure _ _⟩

theorem Gives.trivial : Gives (fun _ => True) x := ⟨(⟨·, True.intro⟩) <$> x, by simp⟩

theorem Gives.bind {q : β → Prop} {f : α → m β} (hx : Gives p x) (hf : ∀ a, p a → Gives q (f a)) :
    Gives q (x >>= f) := by
  obtain ⟨y, rfl⟩ := hx
  choose g hg using fun a : Subtype p => hf a.val a.property
  exact ⟨y >>= g, by simp [hg]⟩

theorem Gives.map {q : β → Prop} {f : α → β} (hx : Gives p x) (hf : ∀ a, p a → q (f a)) :
    Gives q (f <$> x) := by
  obtain ⟨y, rfl⟩ := hx
  exact ⟨(fun a => ⟨f a.val, hf _ a.property⟩) <$> y, by simp⟩

theorem Gives.imp {q : α → Prop} (hx : Gives p x) (hpq : ∀ a, p a → q a) : Gives q x := by
  have h : Gives q (id <$> x) := hx.map hpq
  rwa [id_map] at h

end

variable {m : Type → Type} [Monad m] [LawfulMonad m] {source : SqlSource m}

/-- An action that gives an error, whatever its effects are. -/
def Fails {α : Type} (x : m (Except SourceProblem α)) : Prop :=
  Gives (fun res => ∃ e, res = .error e) x

/-- There is no SQL for an id: none is fetched by the id, and none by what it is resolved to as a slug. -/
structure IsMissing (source : SqlSource m) (id : String) : Prop where
  not_fetched : Fails (source.sql id)
  not_resolved : Gives (fun res => ∀ other, res = .ok other → Fails (source.sql other))
    (source.queryOfSlug id)

theorem fetch_missing (h : IsMissing source id) :
    Gives (fun raw => raw = missingSql id) (source.fetch id) := by
  unfold SqlSource.fetch
  refine h.not_fetched.bind ?_
  rintro _ ⟨_, rfl⟩
  refine h.not_resolved.bind ?_
  intro res hres
  cases res with
  | error _ => exact Gives.pure rfl
  | ok other =>
    refine (hres other rfl).bind ?_
    rintro _ ⟨_, rfl⟩
    exact Gives.pure rfl

theorem fetchEach_getElem? {p : String → Prop} {qs : List Query} (hq : qs[i]? = some q)
    (h : Gives p (source.fetch q.source)) :
    Gives (fun raws => ∃ raw, raws[i]? = some raw ∧ p raw) (source.fetchEach qs) := by
  induction qs generalizing i with
  | nil => cases hq
  | cons first qs ih =>
    unfold SqlSource.fetchEach
    rw [List.mapM_cons]
    cases i with
    | zero =>
      cases hq
      exact h.bind fun raw hraw => Gives.trivial.bind fun raws _ =>
        Gives.pure ⟨raw, rfl, hraw⟩
    | succ i =>
      exact Gives.trivial.bind fun raw _ => (ih hq).bind fun raws hraws => Gives.pure hraws

/-- The body of a query is made of the SQL that is fetched for it. -/
theorem compile_body (hdialect : HasDialect source r) (hpretty : r.pretty = false)
    (hq : r.blend.queries[i]? = some q) {p : String → Prop} (h : Gives p (source.fetch q.source)) :
    Gives (fun res => ∃ raw, p raw ∧ r.GivesBody i (r.bodyOf q raw) res)
      (r.compile format source) := by
  have hne : r.blend.queries ≠ [] := by
    intro hnil
    rw [hnil] at hq
    cases hq
  obtain ⟨d, hd⟩ := exists_dialectIn hdialect
  rw [compile_of_dialectIn hne hd]
  refine Gives.map (p := fun out => ∃ raw, p raw ∧ r.GivesBody i (r.bodyOf q raw) (.ok out))
    (Gives.trivial.bind fun dialect _ => (fetchEach_getElem? hq h).bind ?_) fun _ hout => hout
  rintro raws ⟨raw, hraw, hp⟩
  exact Gives.pure ⟨raw, hp, _, rfl, finish_hasBody hpretty hq dialect hraw⟩

/-- **Placeholders.** The body of a missing query is the notice with its id, on stable views or not, if
the id is of one line and does not name the rank of a pivot. On stable views the body of a query with an
unsupported pivot is the refusal, and that is of one line whatever the dimensions are named. -/
theorem compile_placeholders (format : Sql.Formatter) (hdialect : HasDialect source r)
    (hpretty : r.pretty = false) (hq : r.blend.queries[i]? = some q) :
    (IsMissing source q.source → '\n' ∉ q.source.toList → ¬ Pivot.rankColumn <:+: q.source.toList →
      Gives (r.GivesBody i (missingSql q.source).toList) (r.compile format source)) ∧
    (r.stableViews = true → ∀ raw e, Segments.parse raw.toList = .error e →
      '\n' ∉ "-- Error: ".toList ++ e.message ∧
      (Gives (fun fetched => fetched = raw) (source.fetch q.source) →
        Gives (r.GivesBody i ("-- Error: ".toList ++ e.message)) (r.compile format source))) := by
  constructor
  · intro hmissing hfeed hrank
    refine (compile_body hdialect hpretty hq (fetch_missing hmissing)).imp ?_
    rintro res ⟨raw, rfl, hres⟩
    rwa [bodyOf_missing hfeed hrank] at hres
  · intro hstable raw e hparse
    refine ⟨feed_notMem_refusal hparse, fun hfetch => ?_⟩
    refine (compile_body hdialect hpretty hq hfetch).imp ?_
    rintro res ⟨_, rfl, hres⟩
    rwa [bodyOf_refused hstable hparse] at hres

/-- A select in a pivot over two columns. -/
def twoColumns : String :=
  "SELECT *, DENSE_RANK() OVER (ORDER BY \"LIMIT 5 --\", \"b\") AS z__pivot_col_rank FROM (SELECT 1) ww"

def twoColumnsPivot : UnsupportedPivot := ⟨[], ["LIMIT 5 --".toList, "b".toList]⟩

theorem columnNames_twoColumns : Pivot.columnNames twoColumns.toList = twoColumnsPivot.columns := by
  have hlist : Pivot.between? Pivot.columnListStart Pivot.columnListStop twoColumns.toList =
      some "\"LIMIT 5 --\", \"b\"".toList := by decide +kernel
  have hnames : (Pivot.quotedNames "\"LIMIT 5 --\", \"b\"".toList).eraseDups =
      twoColumnsPivot.columns := by decide +kernel
  rw [Pivot.columnNames, Pivot.listedNames, hlist]
  show (Pivot.quotedNames _).eraseDups.mergeSort _ = _
  rw [hnames]
  exact List.mergeSort_of_pairwise (by decide +kernel)

theorem parse_twoColumns : Segments.parse twoColumns.toList = .error twoColumnsPivot := by
  obtain ⟨hlines, hwrapped, hinner, hrows⟩ :
      (∀ l ∈ lines twoColumns.toList, LineKind.ofLine l = .plain) ∧
        Pivot.isWrapped twoColumns.toList = true ∧
        Pivot.innermost? twoColumns.toList = some "SELECT 1".toList ∧
        Pivot.between? Pivot.rowListStart Pivot.rowListStop twoColumns.toList = none := by
    decide +kernel
  have hsplit : Segments.split twoColumns.toList = { select := twoColumns.toList } :=
    split_of_plain fun l hl => .inl (hlines l hl)
  have hflat : Pivot.flatSelect twoColumns.toList = .error twoColumnsPivot := by
    simp only [Pivot.flatSelect, hinner, columnNames_twoColumns, Pivot.rowNames, Pivot.listedNames, hrows]
    rfl
  simp only [Segments.parse, hsplit, hwrapped, hflat]
  rfl

theorem isMissing_trio : IsMissing (m := Id) (trioSource none).source "q3" where
  not_fetched := gives_id_iff.mpr ⟨_, rfl⟩
  not_resolved := gives_id_iff.mpr fun other h => by cases h

/-- A query that is not there, and a query with a pivot over two columns. -/
theorem compile_placeholders_trio :
    IsMissing (m := Id) (trioSource none).source "q3" ∧
    trioRequest.GivesBody 2 (missingSql "q3").toList
      (trioRequest.compile (m := Id) Sql.asWritten (trioSource none).source) ∧
    Segments.parse twoColumns.toList = .error twoColumnsPivot ∧
    trioRequest.GivesBody 2 ("-- Error: ".toList ++ twoColumnsPivot.message)
      (trioRequest.compile (m := Id) Sql.asWritten (trioSource (some twoColumns)).source) := by
  have hdialect (text : Option String) : HasDialect (m := Id) (trioSource text).source trioRequest :=
    .named "warehouse" "snowflake" rfl rfl
  obtain ⟨hnotice, -⟩ := compile_placeholders (i := 2) Sql.asWritten (hdialect none) rfl rfl
  obtain ⟨-, hrefusal⟩ := compile_placeholders (i := 2) Sql.asWritten (hdialect (some twoColumns)) rfl rfl
  obtain ⟨-, hgives⟩ := hrefusal rfl twoColumns _ parse_twoColumns
  exact ⟨isMissing_trio, gives_id_iff.mp (hnotice isMissing_trio (by decide) (by decide)),
    parse_twoColumns, gives_id_iff.mp (hgives (gives_id_iff.mpr rfl))⟩

end Request
end QueryBlend
