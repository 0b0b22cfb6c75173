import QueryBlend.Proofs.Pivot.Wrapper
import QueryBlend.Proofs.Sql.RowCaps
/-!
# Pivots of selects that are capped

`flatSelect` puts the order and the row cap of a pivot behind the select inside. The order is left out only
if the select has one of its own, whatever else it ends in, and the row cap only if `bareCap` occurs in the
select: that pattern knows neither an `OFFSET` nor a last comment, which `closingCap` does.

Only the row cap that ends the select counts for that: `bareCap` reads to the end of a text, and a row cap
does not start inside of one (`barsInside_bareCap`, `occursIn_bareCap_append`).

Results:
* `flatSelect_capped`: a select that ends in a row cap comes out of a pivot unchanged exactly if neither is
  put behind it.
-/
namespace QueryBlend.Pivot
open Text Text.Form Sql

variable {wrapper select inner flat before cap : List Char}

/-! ## What is put behind a select -/

theorem flatSelect_eq_ok (hinner : innermost? wrapper = some inner) (h : flatSelect wrapper = .ok flat) :
    flat = withCap wrapper (withOrder wrapper (arranged wrapper inner)) := by
  rw [flatSelect, hinner] at h
  simp only [] at h
  split at h
  · cases h
  · exact (Except.ok.inj h).symm

theorem isPrefix_withOrder (wrapper select : List Char) : select <+: withOrder wrapper select := by
  rw [withOrder]
  split
  · exact List.prefix_append _ _
  · exact List.prefix_refl _

theorem isPrefix_withCap (wrapper select : List Char) : select <+: withCap wrapper select := by
  rw [withCap]
  split
  · split
    · exact List.prefix_refl _
    · exact List.prefix_append _ _
  · exact List.prefix_refl _

/-- No order is put behind a select only if the pivot has none or the select has one at top level. -/
theorem withOrder_eq_self_iff : withOrder wrapper select = select ↔
    (rankOrder.occursIn wrapper = true → StandsIn orderBy select) := by
  rw [← lastAtTop?_isSome_iff beginsIn_orderBy barsInside_orderBy, withOrder]
  split
  · rename_i hput
    rw [Bool.and_eq_true, Option.isNone_iff_eq_none] at hput
    refine iff_of_false (fun h => ?_) fun h => ?_
    · exact absurd (List.append_right_eq_self.mp h) (by decide)
    · have hsome := h hput.1
      rw [hput.2] at hsome
      cases hsome
  · rename_i hkept
    refine iff_of_true rfl fun hrank => ?_
    rw [hrank, Bool.true_and, Option.isNone_iff_eq_none] at hkept
    exact Option.isSome_iff_ne_none.mpr hkept

/-- No row cap is put behind a select only if the pivot has none or one can be read in the select. -/
theorem withCap_eq_self_iff : withCap wrapper select = select ↔
    ((rowBound? wrapper).isSome = true → bareCap.occursIn select = true) := by
  rw [withCap]
  split
  · rename_i n hbound
    rw [hbound]
    split
    · rename_i hbare
      exact iff_of_true rfl fun _ => hbare
    · rename_i hbare
      refine iff_of_false (fun h => ?_) fun h => hbare (h rfl)
      rw [capClause_eq, List.append_right_eq_self] at h
      cases h
  · rename_i hbound
    rw [hbound]
    refine iff_of_true rfl fun h => ?_
    cases h

theorem withCap_withOrder_eq_self_iff : withCap wrapper (withOrder wrapper select) = select ↔
    withOrder wrapper select = select ∧ withCap wrapper select = select := by
  constructor
  · intro h
    have hcap := isPrefix_withCap wrapper (withOrder wrapper select)
    rw [h] at hcap
    have horder : withOrder wrapper select = select :=
      hcap.eq_of_length_le (isPrefix_withOrder wrapper select).length_le
    exact ⟨horder, by rwa [horder] at h⟩
  · rintro ⟨horder, hcap⟩
    rw [horder, hcap]

/-! ## The row cap of the select -/

theorem barsInside_bareCap : BarsInside bareCap.form closingCap :=
  have hfetch := barsInside_fetchForm beginsIn_closingCap (by decide)
  ((barsInside_limitForm beginsIn_closingCap).either hfetch).seq
    ((bars_gap beginsIn_closingCap).seq (bars_textEnd beginsIn_closingCap))

theorem rest_of_bareCap {s r : List Char} (h : bareCap.form s = some r) : r = [] := by
  obtain ⟨t, -, h⟩ := seq_eq_some_iff.mp h
  obtain ⟨u, -, hend⟩ := seq_eq_some_iff.mp h
  obtain rfl := textEnd_eq_some hend
  exact (Option.some.inj hend).symm

/-- What is in front of a row cap does not count for whether it is bare. -/
theorem occursIn_bareCap_append (hcap : StandsAt closingCap before cap) :
    bareCap.occursIn (before ++ cap) = bareCap.occursIn cap := by
  obtain ⟨r', hr'⟩ := Option.isSome_iff_exists.mp hcap.reads
  rw [Bool.eq_iff_iff, Pattern.occursIn_iff, Pattern.occursIn_iff]
  constructor
  · rintro ⟨a, b, r, hab, hb, hr⟩
    obtain ⟨u, rfl, rfl⟩ | ⟨u, rfl, rfl, hu⟩ := append_eq_append_cases hab
    · exact ⟨u, b, r, rfl, hb, Pattern.readAt_of_append hr⟩
    · -- the row cap would start in what a bare one takes
      obtain ⟨c, cs, rfl, -⟩ := exists_letter beginsIn_closingCap hr'
      have hform := Pattern.form_of_readAt hr
      obtain rfl := rest_of_bareCap hform
      have hnone := barsInside_bareCap.inside u (c :: cs) [] hform hu (by simp)
      rw [Pattern.readAt_of_append hr'] at hnone
      cases hnone
  · rintro ⟨a, b, r, rfl, hb, hr⟩
    refine ⟨before ++ a, b, r, by rw [List.append_assoc], hb, ?_⟩
    by_cases ha : a = []
    · subst ha
      have hplaces : closingCap.atWordStart = bareCap.atWordStart := rfl
      rw [List.append_nil]
      exact Pattern.readAt_of_place hplaces hr' (Pattern.form_of_readAt hr)
    · rwa [List.getLast?_append_of_ne_nil _ ha]

/-- **Pivots of capped selects.** A select that ends in a row cap at top level comes out of a pivot unchanged
exactly if the pivot has no order or the select has one at top level, and the pivot has no row cap or the
one of the select is bare or has a bare one in its comment. -/
theorem flatSelect_capped (hinner : innermost? wrapper = some inner) (hflat : flatSelect wrapper = .ok flat)
    (hselect : arranged wrapper inner = before ++ cap) (hcap : StandsAt closingCap before cap) :
    flat = before ++ cap ↔ (rankOrder.occursIn wrapper = true → StandsIn orderBy (before ++ cap)) ∧
      ((rowBound? wrapper).isSome = true → bareCap.occursIn cap = true) := by
  rw [flatSelect_eq_ok hinner hflat, hselect, withCap_withOrder_eq_self_iff, withOrder_eq_self_iff,
    withCap_eq_self_iff, occursIn_bareCap_append hcap]

-- `decide` goes as deep as the pivots below are long
set_option maxRecDepth 1000

/-- A pivot without dimensions that orders its rows and caps them. -/
def rankedOver (inner : List Char) : List Char :=
  "SELECT *, 1 AS z__pivot_col_rank FROM (".toList ++ inner ++
    ") ww WHERE z___pivot_row_rank <= 500 ORDER BY z___pivot_row_rank".toList

/-- A pivot without dimensions leaves the select inside as it is but for what is put behind it. -/
theorem flatSelect_of_no_names (hinner : innermost? wrapper = some inner)
    (hrow : between? rowListStart rowListStop wrapper = none)
    (hcolumn : between? columnListStart columnListStop wrapper = none) :
    arranged wrapper inner = inner ∧
      flatSelect wrapper = .ok (withCap wrapper (withOrder wrapper inner)) := by
  have hrows : rowNames wrapper = [] := by rw [rowNames, listedNames, hrow]
  have hcolumns : columnNames wrapper = [] := by rw [columnNames, listedNames, hcolumn]
  refine ⟨by rw [arranged, hrows], ?_⟩
  rw [flatSelect, hinner]
  simp only [hrows, hcolumns]
  exact if_neg (by decide)

def orderedFront : List Char := "SELECT a FROM t ORDER BY 1 ".toList

def plainFront : List Char := "SELECT a FROM t\n".toList

theorem flatSelect_capped_ordered : ∃ flat, flatSelect (rankedOver (orderedFront ++ rowCap)) = .ok flat ∧
    flat = orderedFront ++ rowCap := by
  have hinner : innermost? (rankedOver (orderedFront ++ rowCap)) = some (orderedFront ++ rowCap) := by
    decide
  obtain ⟨hselect, hflat⟩ := flatSelect_of_no_names hinner (by decide) (by decide)
  have hcut : orderedFront ++ rowCap = "SELECT a FROM t ".toList ++ "ORDER BY 1 LIMIT 10".toList := by decide
  exact ⟨_, hflat, (flatSelect_capped hinner hflat hselect (by decide)).mpr
    ⟨fun _ => ⟨_, _, hcut, by decide⟩, fun _ => by decide⟩⟩

/-- So the clauses of a pivot may be put behind a row cap. -/
theorem flatSelect_stacks : ¬ ∀ wrapper inner flat before cap, innermost? wrapper = some inner →
    flatSelect wrapper = .ok flat → arranged wrapper inner = before ++ cap →
      isClosed (before ++ cap) = true → StandsAt closingCap before cap → flat = before ++ cap := by
  intro h
  have hinner : innermost? (rankedOver (plainFront ++ rowCap)) = some (plainFront ++ rowCap) := by
    decide
  obtain ⟨hselect, hflat⟩ := flatSelect_of_no_names hinner (by decide) (by decide)
  have hkept := h _ _ _ plainFront rowCap hinner hflat hselect (by decide) (by decide)
  have hstacked : withCap (rankedOver (plainFront ++ rowCap))
      (withOrder (rankedOver (plainFront ++ rowCap)) (plainFront ++ rowCap)) ≠ plainFront ++ rowCap := by
    decide
  exact hstacked hkept

end QueryBlend.Pivot
