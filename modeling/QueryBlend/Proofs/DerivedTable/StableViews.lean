import QueryBlend.Proofs.DerivedTable.Redirection
import QueryBlend.Proofs.Segments
import QueryBlend.Proofs.Text.Substitution
/-!
# Queries on stable views

The text of a generated query is the blocks of its derived tables and a select behind them. Its select
on the stable views is that select with each reference to a table, of either variant, replaced by the
name of the table's stable view, all at once.

Four passes come together here. The lines fall into the blocks and the select (`split_blocks`); each
block tells its table (`BuildBlock.ofBlock_text`); the references are replaced table by table and variant
by variant (`redirect_eq_foldl`); and that is all at once, because a reference is made of characters of
one class (`isReferenceChar`) and stands alone wherever it occurs.

* `stableSelect_generated`: the select on the stable views.
-/
namespace QueryBlend
open Text

namespace BuiltTable

/-- What a select on the stable view is to have in place of references to the table. -/
def rules (t : BuiltTable) : List Rule :=
  [⟨t.reference .r, t.stableName⟩, ⟨t.reference .c, t.stableName⟩]

/-! ## Redirection -/

theorem referenceTo_name (t : BuiltTable) (v : Variant) :
    t.derived.referenceTo (t.name v) = t.reference v := by
  unfold DerivedTable.referenceTo reference path derived
  simp only [List.append_assoc]

theorem rules_derived (t : BuiltTable) : t.derived.rules = t.rules := by
  have hnames : t.derived.names = [t.name .r, t.name .c] := rfl
  have hreferences : t.derived.references = [t.reference .r, t.reference .c] := by
    rw [DerivedTable.references, hnames]
    simp only [List.map_cons, List.map_nil, referenceTo_name]
  rw [DerivedTable.rules, hreferences]
  rfl

theorem redirect_eq_foldl (ts : List BuiltTable) (s : List Char) :
    DerivedTable.redirect s (ts.map derived) =
      (ts.flatMap rules).foldl (fun s e => replaceAll e.old e.new s) s := by
  rw [DerivedTable.redirect_eq_foldl, List.flatMap_map, funext rules_derived]

theorem isReferenceChar_reference (t : BuiltTable) (v : Variant) :
    (t.reference v).all isReferenceChar = true := by
  have hpath := all_imp (t.isPathChar_path v) isReferenceChar_of_isPathChar
  have hmark : t.mark.all isReferenceChar = true := by
    rcases t.mark_mem with h | h | h <;> rw [h] <;> decide
  rw [reference, List.all_append, List.all_append, hpath, hmark]
  rfl

theorem isReferenceChar_stableName (t : BuiltTable) : t.stableName.all isReferenceChar = true := by
  have schema {c : Char} (h : isSchemaChar c = true) : isReferenceChar c = true :=
    isReferenceChar_of_isPathChar (isPathChar_of_isSchemaChar h)
  have name {c : Char} (h : isNameChar c = true) : isReferenceChar c = true :=
    schema (isSchemaChar_of_isNameChar h)
  have hkey := all_imp t.key_name.2 fun h => name (isNameChar_of_isAsciiAlphanumeric h)
  have hdot : isReferenceChar '.' = true := by decide
  have hunder : isReferenceChar '_' = true := by decide
  rw [stableName]
  simp only [List.all_append, List.all_cons, all_imp t.schema_name.2 schema, hdot, hkey, hunder,
    all_imp t.model_name.2 name, all_imp t.view_name.2 name, Bool.and_self]

theorem reference_ne_nil (t : BuiltTable) (v : Variant) : t.reference v ≠ [] := by
  simp [reference, path]

theorem mem_rules {t : BuiltTable} {e : Rule} :
    e ∈ t.rules ↔ ∃ v, e = ⟨t.reference v, t.stableName⟩ := by
  constructor
  · intro h
    rcases List.mem_cons.mp h with h | h
    · exact ⟨.r, h⟩
    · exact ⟨.c, List.mem_singleton.mp h⟩
  · rintro ⟨v, rfl⟩
    cases v
    · exact List.mem_cons_self
    · exact List.mem_cons_of_mem _ List.mem_cons_self

end BuiltTable

/-! ## The lines of a block -/

theorem trimStart_append {w : List Char} (h : w.head?.any (!isBlank ·) = true) (s : List Char) :
    trimStart (w ++ s) = w ++ s := by
  cases w with
  | nil => cases h
  | cons c cs =>
    have hc : isBlank c = false := by simpa using h
    rw [trimStart, List.cons_append, List.dropWhile_cons_of_neg (by rw [hc]; exact Bool.false_ne_true)]

/-- Texts that differ early on are not in front of each other. -/
theorem isPrefixOf_append_eq_false {m w : List Char} {n : Nat} (hm : n ≤ m.length)
    (hw : n ≤ w.length) (h : m.take n ≠ w.take n) (s : List Char) :
    m.isPrefixOf (w ++ s) = false := by
  rw [Bool.eq_false_iff, ne_eq, List.isPrefixOf_iff_prefix]
  rintro ⟨r, hr⟩
  apply h
  have := congrArg (List.take n) hr
  rwa [List.take_append_of_le_length hm, List.take_append_of_le_length hw] at this

theorem isPrefixOf_append_self (w s : List Char) : w.isPrefixOf (w ++ s) = true :=
  List.isPrefixOf_iff_prefix.mpr (List.prefix_append w s)

theorem ofLine_generateLine (announced : List Char) :
    LineKind.ofLine (generateLine announced) = .blockStart := by
  have htrim : trimStart (blockStartMarker ++ announced) = blockStartMarker ++ announced :=
    trimStart_append (by decide) announced
  have hline : generateLine announced = blockStartMarker ++ announced := rfl
  rw [hline]
  unfold LineKind.ofLine
  simp only [htrim, isPrefixOf_append_self, if_true]

theorem ofLine_buildingLine (t : BuiltTable) (note : List Char) :
    LineKind.ofLine (t.buildingLine note) = .plain := by
  have htrim : trimStart (t.buildingLine note) = t.buildingLine note :=
    trimStart_append (by decide) _
  have hstart : blockStartMarker.isPrefixOf (t.buildingLine note) = false :=
    isPrefixOf_append_eq_false (n := 4) (by decide) (by decide) (by decide) _
  have hfinish : blockFinishMarker.isPrefixOf (t.buildingLine note) = false :=
    isPrefixOf_append_eq_false (n := 4) (by decide) (by decide) (by decide) _
  have hdiffer : ∀ m ∈ totalMarkers, 4 ≤ m.1.length ∧
      m.1.take 4 ≠ "-- Building persistent derived table ".toList.take 4 := by decide
  have htotals : (totalMarkers.find? fun m => m.1.isPrefixOf (t.buildingLine note)) = none := by
    refine List.find?_eq_none.mpr fun m hm => ?_
    obtain ⟨hlen, hne⟩ := hdiffer m hm
    exact Bool.eq_false_iff.mp (isPrefixOf_append_eq_false hlen (by decide) hne _)
  unfold LineKind.ofLine
  simp only [htrim, hstart, hfinish, htotals, Bool.false_eq_true, if_false]

theorem ofLine_finishedLine (t : BuiltTable) (finished : List Char) (v : Variant)
    (ending : List Char) : LineKind.ofLine (t.finishedLine finished v ending) = .blockFinish := by
  have htrim : trimStart (t.finishedLine finished v ending) = t.finishedLine finished v ending :=
    trimStart_append (by decide) _
  have hstart : blockStartMarker.isPrefixOf (t.finishedLine finished v ending) = false :=
    isPrefixOf_append_eq_false (n := 4) (by decide) (by decide) (by decide) _
  have hfinish : blockFinishMarker.isPrefixOf (t.finishedLine finished v ending) = true := by
    have hmarker : blockFinishMarker <+: "-- finished ".toList :=
      List.isPrefixOf_iff_prefix.mp (by decide)
    exact List.isPrefixOf_iff_prefix.mpr (hmarker.trans (List.prefix_append _ _))
  unfold LineKind.ofLine
  simp only [htrim, hstart, hfinish, Bool.false_eq_true, if_false, if_true]

namespace BuildBlock

variable (k : BuildBlock)

theorem isBlock_lines : IsBlock k.lines := by
  refine ⟨generateLine k.announced, k.table.buildingLine k.note :: k.inner, k.last, rfl,
    ofLine_generateLine _, ofLine_finishedLine _ _ _ _, fun l hl => ?_⟩
  rcases List.mem_cons.mp hl with rfl | hl
  · exact ofLine_buildingLine _ _
  · exact k.inner_plain l hl

theorem feed_not_mem_lines : ∀ l ∈ k.lines, '\n' ∉ l := by
  have feed {p : Char → Bool} {s : List Char} (h : s.all p = true) (hp : p '\n' = false) :
      '\n' ∉ s := not_mem_of_all h hp
  have hannounced := k.no_feed k.announced (by simp)
  have hnote := k.no_feed k.note (by simp)
  have hending := k.no_feed k.ending (by simp)
  have hmodel := feed k.table.model_name.2 (by decide)
  have hview := feed k.table.view_name.2 (by decide)
  have hfinished := feed k.finished_word.2 (by decide)
  have href := feed (k.table.isReferenceChar_reference k.built) (by decide)
  have w1 : '\n' ∉ "-- generate derived table".toList := by decide
  have w2 : '\n' ∉ "-- Building persistent derived table ".toList := by decide
  have w3 : '\n' ∉ "::".toList := by decide
  have w4 : '\n' ∉ "-- finished ".toList := by decide
  have w5 : '\n' ∉ " => ".toList := by decide
  intro l hl
  rcases List.mem_cons.mp hl with rfl | hl
  · unfold generateLine
    simp only [List.mem_append, not_or]
    exact ⟨w1, hannounced⟩
  rcases List.mem_cons.mp hl with rfl | hl
  · unfold BuiltTable.buildingLine
    simp only [List.mem_append, not_or]
    exact ⟨w2, hmodel, w3, hview, hnote⟩
  rcases List.mem_append.mp hl with hl | hl
  · exact k.no_feed l (List.mem_append_right _ hl)
  · cases List.mem_singleton.mp hl
    unfold last BuiltTable.finishedLine
    simp only [List.mem_append, not_or]
    exact ⟨w4, hfinished, w5, href, hending⟩

end BuildBlock

/-! ## The select -/

/-- The text of a generated query: blocks, and a select behind them. -/
def generated (blocks : List BuildBlock) (select : List Char) : List Char :=
  blocks.flatMap (fun k => k.text ++ ['\n']) ++ select

theorem split_generated (blocks : List BuildBlock) {s : List Char} (hs : IsSelect (lines s)) :
    (Segments.split (generated blocks s)).blocks = blocks.map BuildBlock.text ∧
      (Segments.split (generated blocks s)).select = s := by
  have hblocks : ∀ b ∈ blocks.map BuildBlock.lines, IsBlock b := by
    intro b hb
    obtain ⟨k, -, rfl⟩ := List.mem_map.mp hb
    exact k.isBlock_lines
  have hfeed : ∀ b ∈ blocks.map BuildBlock.lines, ∀ l ∈ b, '\n' ∉ l := by
    intro b hb
    obtain ⟨k, -, rfl⟩ := List.mem_map.mp hb
    exact k.feed_not_mem_lines
  have hsplit := split_blocks hblocks hfeed hs
  rw [List.flatMap_map, List.map_map] at hsplit
  exact hsplit

/-- Replacing references one after the other is replacing them all at once. -/
theorem redirect_eq_substitute {ts : List BuiltTable} {s : List Char}
    (hstable : ∀ t ∈ ts, ∀ t' ∈ ts, ∀ v, ¬ t.reference v <:+: t'.stableName)
    (halone : ∀ t ∈ ts, ∀ v, StandsAlone isReferenceChar (t.reference v) s) :
    DerivedTable.redirect s (ts.map BuiltTable.derived) =
      substitute (ts.flatMap BuiltTable.rules) s := by
  have hrule : ∀ e ∈ ts.flatMap BuiltTable.rules, ∃ t ∈ ts, ∃ v, e = ⟨t.reference v, t.stableName⟩ := by
    intro e he
    obtain ⟨t, ht, het⟩ := List.mem_flatMap.mp he
    exact ⟨t, ht, BuiltTable.mem_rules.mp het⟩
  have hsearch : Searches isReferenceChar (ts.flatMap BuiltTable.rules) := by
    intro e he
    obtain ⟨t, -, v, rfl⟩ := hrule e he
    exact ⟨t.reference_ne_nil v, t.isReferenceChar_reference v⟩
  have hnew : ∀ e ∈ ts.flatMap BuiltTable.rules, e.new.all isReferenceChar = true := by
    intro e he
    obtain ⟨t, -, v, rfl⟩ := hrule e he
    exact t.isReferenceChar_stableName
  have hclash : ∀ e ∈ ts.flatMap BuiltTable.rules, ∀ f ∈ ts.flatMap BuiltTable.rules,
      ¬ f.old <:+: e.new := by
    intro e he f hf
    obtain ⟨t', ht', v', rfl⟩ := hrule e he
    obtain ⟨t, ht, v, rfl⟩ := hrule f hf
    exact hstable t ht t' ht' v
  have hs : ∀ e ∈ ts.flatMap BuiltTable.rules, StandsAlone isReferenceChar e.old s := by
    intro e he
    obtain ⟨t, ht, v, rfl⟩ := hrule e he
    exact halone t ht v
  rw [BuiltTable.redirect_eq_foldl, foldl_replaceAll_eq_substitute hsearch hnew hclash hs]

/-- **Stable views.** Take any blocks and any select that has no line to start a block or announce
totals and no pivot. If no reference to a table is a part of the name of a stable view, and references
stand alone in the select, then the text of the blocks and the select has the select on the stable views
that is meant: all references replaced, of both variants, each by the stable view of its table. That no
reference is a part of another one need not be asked: it would not stand alone there. -/
theorem stableSelect_generated (blocks : List BuildBlock) {s : List Char} (hs : IsSelect (lines s))
    (hpivot : ¬ "z__pivot_col_rank".toList <:+: s)
    (hstable : ∀ k ∈ blocks, ∀ k' ∈ blocks, ∀ v,
      ¬ k.table.reference v <:+: k'.table.stableName)
    (halone : ∀ k ∈ blocks, ∀ v, StandsAlone isReferenceChar (k.table.reference v) s) :
    stableSelect (generated blocks s) =
      .ok (substitute (blocks.flatMap fun k => k.table.rules) s) := by
  obtain ⟨hblocks, hselect⟩ := split_generated blocks hs
  have hwrapped : Pivot.isWrapped (Segments.split (generated blocks s)).select = false := by
    rw [hselect, Pivot.isWrapped, Bool.eq_false_iff, ne_eq, hasPart_iff]
    exact hpivot
  have htables : (blocks.map BuildBlock.text).map DerivedTable.ofBlock =
      (blocks.map BuildBlock.table).map BuiltTable.derived := by
    rw [List.map_map, List.map_map]
    exact List.map_congr_left fun k _ => k.ofBlock_text
  have hredirect : DerivedTable.redirect s ((blocks.map BuildBlock.table).map BuiltTable.derived) =
      substitute ((blocks.map BuildBlock.table).flatMap BuiltTable.rules) s := by
    refine redirect_eq_substitute (fun t ht t' ht' v => ?_) (fun t ht v => ?_)
    · obtain ⟨k, hk, rfl⟩ := List.mem_map.mp ht
      obtain ⟨k', hk', rfl⟩ := List.mem_map.mp ht'
      exact hstable k hk k' hk' v
    · obtain ⟨k, hk, rfl⟩ := List.mem_map.mp ht
      exact halone k hk v
  unfold stableSelect
  rw [parse_of_not_wrapped hwrapped]
  show Except.ok (DerivedTable.redirect _ ((Segments.split (generated blocks s)).blocks.map _)) = _
  rw [hblocks, hselect, htables, hredirect, List.flatMap_map]

/-- A table without a project and without marks. -/
def ordersTable : BuiltTable where
  model := "shop".toList
  view := "orders".toList
  schema := "tmp".toList
  separator := '$'
  key := "ZK".toList
  suffix := "a1".toList

/-- A table with a project and between backticks. -/
def usersTable : BuiltTable where
  model := "shop".toList
  view := "users".toList
  schema := "tmp".toList
  project := "lab-1".toList
  separator := '_'
  key := "AB".toList
  suffix := "x7".toList
  mark := ['\x60']

def twoBlocks : List BuildBlock :=
  [{ table := ordersTable
     announced := " orders".toList
     note := " in dev mode".toList
     inner := ["CREATE TABLE tmp.LR$ZKa1 AS (".toList, "SELECT 1 AS id )".toList]
     finished := "orders".toList
     built := .r },
   { table := usersTable
     inner := ["CREATE TABLE x AS (SELECT 1)".toList]
     finished := "users".toList
     built := .c }]

/-- A select that refers to each table by the variant that has been built, and to one by the other. -/
def twoTablesSelect : List Char :=
  "SELECT 1 FROM tmp.LR$ZKa1 AS o\nJOIN \x60lab-1.tmp.LC_ABx7\x60, (tmp.LC$ZKa1)".toList

theorem stableSelect_twoBlocks :
    stableSelect (generated twoBlocks twoTablesSelect) = .ok
      "SELECT 1 FROM tmp.ZK_shop_orders AS o\nJOIN tmp.AB_shop_users, (tmp.ZK_shop_orders)".toList := by
  have hs : ∀ l ∈ lines twoTablesSelect,
      LineKind.ofLine l = .plain ∨ LineKind.ofLine l = .blockFinish := by decide +kernel
  have hpivot : ¬ "z__pivot_col_rank".toList <:+: twoTablesSelect := by decide +kernel
  have hstable : ∀ k ∈ twoBlocks, ∀ k' ∈ twoBlocks, ∀ v,
      ¬ k.table.reference v <:+: k'.table.stableName := by decide +kernel
  have halone : ∀ k ∈ twoBlocks, ∀ v,
      StandsAlone isReferenceChar (k.table.reference v) twoTablesSelect := by decide +kernel
  rw [stableSelect_generated twoBlocks hs hpivot hstable halone]
  refine congrArg Except.ok ?_
  decide +kernel

end QueryBlend
