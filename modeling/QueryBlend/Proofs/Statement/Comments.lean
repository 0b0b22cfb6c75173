import QueryBlend.Proofs.Sql.Comment
import QueryBlend.SqlSource
import QueryBlend.Statement
/-!
# What is put into comments

Two texts that nobody checks get into a statement behind two hyphens: the token of a request, in front of
the statement, and the id of a query that cannot be found, in place of its SQL. Both stay in their
comments as long as they have no line feed, and no longer: behind a line feed they are read as SQL.

* `hidesToken_iff`: a token does not show in the mask of a statement, and does not change the mask of the
  rest, exactly when it has no line feed.
* `isSilent_iff`: the notice for an id is nothing but a comment, also as the body of a common table
  expression, exactly when the id has no line feed.
-/
namespace QueryBlend.Blend
open Text Sql

variable {b : Blend} {d : Dialect} {raws : List (List Char)} {token id : String}

/-! ## Tokens -/

def tokenStart : List Char := "-- b=".toList

/-- The statement with a token is the token's line and the statement without it; no byte of the token is
top-level code, and what follows the line is masked as it is without the line. -/
structure HidesToken (b : Blend) (d : Dialect) (raws : List (List Char)) (token : String) : Prop where
  sql_eq : (b.statement d (some token) raws).sql =
    tokenStart ++ token.toList ++ '\n' :: (b.statement d none raws).sql
  token_masked : ∀ i < byteCount token.toList,
    (byteMask (b.statement d (some token) raws).sql)[byteCount tokenStart + i]? = some false
  rest_masked : (byteMask (b.statement d (some token) raws).sql).drop
    (byteCount (tokenStart ++ token.toList ++ ['\n'])) = byteMask (b.statement d none raws).sql

theorem statement_token (b : Blend) (d : Dialect) (raws : List (List Char)) (token : String) :
    (b.statement d (some token) raws).sql =
      tokenStart ++ token.toList ++ '\n' :: (b.statement d none raws).sql := by
  have hline : tokenLine (some token) = tokenStart ++ token.toList ++ ['\n'] := rfl
  have hnone : tokenLine none = [] := rfl
  simp only [statement, hline, hnone, List.append_assoc, List.nil_append, List.cons_append]

theorem runTo_tokenStart (next : Option Char) : runTo next {} tokenStart = commentAt 0 := by
  rw [← codeAt_zero]
  exact runTo_hyphens 0 next " b=".toList

/-- Where a token stands, its bytes are masked as a scan in a comment masks them. -/
theorem byteMask_token (s rest : List Char) {i : Nat} (hi : i < byteCount s) :
    (byteMask (tokenStart ++ s ++ '\n' :: rest))[byteCount tokenStart + i]? =
      (spread s (maskTo (some '\n') (commentAt 0) s))[i]? :=
  byteMask_middle tokenStart s ('\n' :: rest) (by rw [runTo_tokenStart]; rfl) hi

/-- A line feed in a token is top-level code. -/
theorem exists_code_of_feed {s : List Char} (h : '\n' ∈ s) (next : Option Char) :
    ∃ i < byteCount s, (spread s (maskTo next (commentAt 0) s))[i]? = some true := by
  obtain ⟨before, behind, rfl, hbefore⟩ := List.eq_append_cons_of_mem h
  have hfront : (spread before (List.replicate before.length false)).length = byteCount before :=
    spread_length (by rw [List.length_replicate])
  refine ⟨byteCount before, ?_, ?_⟩
  · have hsize : 0 < '\n'.utf8Size := Char.utf8Size_pos _
    rw [byteCount_append, byteCount]
    omega
  · rw [maskTo_comment_feed hbefore, spread_append (by simp), List.getElem?_append_right (by omega),
      hfront, Nat.sub_self]
    rfl

theorem hidesToken_iff (b : Blend) (d : Dialect) (raws : List (List Char)) (token : String) :
    HidesToken b d raws token ↔ '\n' ∉ token.toList := by
  constructor
  · rintro ⟨hsql, hmasked, -⟩ hfeed
    obtain ⟨i, hi, hcode⟩ := exists_code_of_feed hfeed (some '\n')
    have hfalse := hmasked i hi
    rw [hsql, byteMask_token _ _ hi, hcode] at hfalse
    cases hfalse
  · intro h
    refine ⟨statement_token b d raws token, fun i hi => ?_, ?_⟩
    · rw [statement_token, byteMask_token _ _ hi, maskTo_comment h, spread_replicate,
        List.getElem?_replicate, if_pos hi]
    · -- the line feed ends the comment, so the rest is scanned from the start
      have hline (next : Option Char) :
          runTo next {} (tokenStart ++ token.toList ++ ['\n']) = {} := by
        rw [runTo_append, runTo_append, runTo_tokenStart, runTo_comment h]
        rfl
      have hcut : (b.statement d (some token) raws).sql =
          (tokenStart ++ token.toList ++ ['\n']) ++ (b.statement d none raws).sql := by
        rw [statement_token, List.append_assoc _ ['\n'], List.singleton_append]
      rw [hcut, byteMask_eq_spread, mask, maskTo_append, hline, spread_append (maskTo_length _ _ _),
        ← spread_length (maskTo_length _ _ _), List.drop_left]
      rfl

/-! ## Notices -/

/-- The notice for an id is nothing but a line comment, and so is the body of the common table
expression of any query whose SQL it stands for. -/
structure IsSilent (id : String) : Prop where
  notice : isLineComment (missingSql id).toList = true
  body : ∀ q, isLineComment (body q (missingSql id).toList) = true

def noticeEnd : List Char :=
  ", couldn't generate SQL. Please contact your BI administrator.".toList

def noticeText (id : String) : List Char :=
  " INVALID_QUERY_ID: ".toList ++ id.toList ++ noticeEnd

theorem noticeStart_eq :
    "-- INVALID_QUERY_ID: ".toList = '-' :: '-' :: " INVALID_QUERY_ID: ".toList := rfl

theorem missingSql_toList (id : String) : (missingSql id).toList = '-' :: '-' :: noticeText id := by
  unfold missingSql
  rw [String.toList_append, String.toList_append, noticeStart_eq]
  unfold noticeText noticeEnd
  rw [List.cons_append, List.cons_append, List.cons_append, List.cons_append]

theorem feed_notMem_noticeEnd : '\n' ∉ noticeEnd := by decide +kernel

theorem noticeEnd_getLast? : noticeEnd.getLast? = some '.' := by decide +kernel

theorem feed_mem_noticeText : '\n' ∈ noticeText id ↔ '\n' ∈ id.toList := by
  have hfront : '\n' ∉ " INVALID_QUERY_ID: ".toList := by decide
  unfold noticeText
  rw [List.mem_append, List.mem_append]
  exact ⟨fun h => (h.resolve_right feed_notMem_noticeEnd).resolve_left hfront, fun h => .inl (.inr h)⟩

theorem isLineComment_missingSql_iff (id : String) :
    isLineComment (missingSql id).toList = true ↔ '\n' ∉ id.toList := by
  rw [missingSql_toList, isLineComment_iff, feed_mem_noticeText]

/-- A line comment of which nothing is stripped becomes the body of a common table expression as it is. -/
theorem body_comment {s : List Char} (h : '\n' ∉ s) {c : Char} (hlast : s.getLast? = some c)
    (hc : isFiller c = false) (hfirst : totals.form ('-' :: '-' :: s) = none)
    (hsecond : totals.form ('-' :: s) = none) (q : Query) :
    body q ('-' :: '-' :: s) = '-' :: '-' :: s := by
  rw [body, stripTrailing_comment h hlast hc hfirst hsecond]
  rfl

/-- A notice becomes the body of a common table expression as it is. -/
theorem body_missingSql (h : '\n' ∉ id.toList) (q : Query) :
    body q (missingSql id).toList = (missingSql id).toList := by
  have hlast : (noticeText id).getLast? = some '.' := by
    unfold noticeText
    rw [List.getLast?_append, noticeEnd_getLast?]
    rfl
  rw [missingSql_toList]
  exact body_comment (fun hf => h (feed_mem_noticeText.mp hf)) hlast (by decide) rfl rfl q

theorem isSilent_iff (id : String) : IsSilent id ↔ '\n' ∉ id.toList := by
  rw [← isLineComment_missingSql_iff]
  refine ⟨IsSilent.notice, fun h => ⟨h, fun q => ?_⟩⟩
  rwa [body_missingSql ((isLineComment_missingSql_iff id).mp h)]

/-! ## Both -/

/-- **Comments.** A token and the id of a missing query stay in their comments, in any statement, exactly
when they have no line feed. -/
theorem comments_closed_iff (b : Blend) (d : Dialect) (raws : List (List Char)) (token id : String) :
    (HidesToken b d raws token ↔ '\n' ∉ token.toList) ∧ (IsSilent id ↔ '\n' ∉ id.toList) :=
  ⟨hidesToken_iff b d raws token, isSilent_iff id⟩

/-- A token of two lines, and an id of two lines, are read as SQL from the second one on. -/
theorem comments_broken :
    ¬ HidesToken { queries := [{ id := "a" }] } .postgres ["SELECT 1".toList] "x\nDROP TABLE t" ∧
      ¬ IsSilent "7\nSELECT 1" := by
  rw [hidesToken_iff, isSilent_iff]
  decide

end QueryBlend.Blend
