import QueryBlend.Proofs.DerivedTable.BuildBlock
import QueryBlend.Proofs.Text.Replacement
import Mathlib.Data.List.Pairwise
import Mathlib.Data.List.Perm.Subperm
/-!
# What a redirection changes

Tables are redirected one after the other, and each reference is replaced wherever its characters stand. So a
longer identifier that has a reference as a part is changed, and what has been put in for one table can be found
for the next one. What holds all the same is said of the *runs* of a query: what is left of it between the
characters that no name has.

* Each run is redirected on its own, and all else stays (`redirect_spaced`).
* A run without a reference stays (`redirect_of_not_occursIn`), and one that is a reference becomes the name of
  the stable view, if it is the only reference in itself and there is none in that name (`redirect_reference`).
* The order of the tables does not show in a run that is *settled* for them: tables that occur in it are apart,
  and none comes to occur in it (`redirect_perm`). In tables that are apart from one another it never shows
  (`Settled.of_apart`).

A run that only has a reference as a part is not a reference, but it is changed, and the order of tables with
different references can show (`redirect_not_by_runs`).
-/
namespace QueryBlend.DerivedTable
open Text

/-- The references that a query can have to the table. -/
def references (t : DerivedTable) : List (List Char) := t.names.map t.referenceTo

/-- What is put in the place of each of them. -/
def rules (t : DerivedTable) : List Rule := t.references.map fun r => ⟨r, t.stableName⟩

/-- A reference to the table is a part of the text. -/
def OccursIn (t : DerivedTable) (s : List Char) : Prop := ∃ r ∈ t.references, r <:+: s

instance (t : DerivedTable) (s : List Char) : Decidable (t.OccursIn s) :=
  inferInstanceAs (Decidable (∃ r ∈ _, _))

/-- No reference to one of the tables meets a reference to the other one or the name of its stable view. -/
def ApartFrom (t u : DerivedTable) : Prop :=
  ∀ r ∈ t.references, ∀ r' ∈ u.references,
    Apart r r' ∧ Apart r u.stableName ∧ Apart r' t.stableName

instance (t u : DerivedTable) : Decidable (t.ApartFrom u) :=
  inferInstanceAs (Decidable (∀ r ∈ _, _))

/-- Different tables that occur in the run are apart, and no other one comes to occur in it when it is redirected
for some of them. -/
structure Settled (ts : List DerivedTable) (run : List Char) : Prop where
  apart : ∀ t ∈ ts, ∀ u ∈ ts, t ≠ u → t.OccursIn run → u.OccursIn run → t.ApartFrom u
  unmade : ∀ us, us.Subperm ts → ∀ t ∈ ts, ¬ t.OccursIn run → ¬ t.OccursIn (redirect run us)

/-- There is no mark around references to the table, and its names have the characters of paths. -/
structure IsPlain (t : DerivedTable) : Prop where
  quoteMark_eq : t.quoteMark = []
  project_path : t.project.all isPathChar = true
  schema_path : t.schema.all isPathChar = true
  nameR_path : t.nameR.all isPathChar = true
  nameC_path : t.nameC.all isPathChar = true
  stableName_path : t.stableName.all isPathChar = true

variable {t u : DerivedTable} {ts us : List DerivedTable} {s : List Char}

/-! ## One table -/

theorem reference_ne_nil {r : List Char} (h : r ∈ t.references) : r ≠ [] := by
  obtain ⟨name, -, rfl⟩ := List.mem_map.mp h
  simp [referenceTo]

theorem redirectOne_eq (t : DerivedTable) (s : List Char) :
    redirectOne s t = t.references.foldl (fun s r => replaceAll r t.stableName s) s := by
  rw [redirectOne, references, List.foldl_map]

theorem redirect_cons (s : List Char) (t : DerivedTable) (ts : List DerivedTable) :
    redirect s (t :: ts) = redirect (redirectOne s t) ts := rfl

theorem redirect_eq_foldl (s : List Char) (ts : List DerivedTable) :
    redirect s ts = (ts.flatMap rules).foldl (fun s e => replaceAll e.old e.new s) s := by
  rw [List.foldl_flatMap, redirect]
  refine congrArg (fun f => ts.foldl f s) (funext fun s => funext fun t => ?_)
  rw [redirectOne_eq, rules, List.foldl_map]

theorem redirectOne_of_not_occursIn (h : ¬ t.OccursIn s) : redirectOne s t = s := by
  rw [redirectOne_eq]
  exact foldl_of_absent _ fun r hr hin => h ⟨r, hr, hin⟩

theorem redirect_of_not_occursIn (h : ∀ t ∈ ts, ¬ t.OccursIn s) : redirect s ts = s := by
  induction ts with
  | nil => rfl
  | cons t ts ih =>
    rw [redirect_cons, redirectOne_of_not_occursIn (h t List.mem_cons_self)]
    exact ih fun u hu => h u (List.mem_cons_of_mem _ hu)

/-! ## A reference -/

theorem redirectOne_reference {r : List Char} (hr : r ∈ t.references)
    (honly : ∀ r' ∈ t.references, r' <:+: r → r' = r) (hstable : ¬ t.OccursIn t.stableName) :
    redirectOne r t = t.stableName := by
  rw [redirectOne_eq]
  exact foldl_of_mem hr (reference_ne_nil hr) honly fun r' hr' hin => hstable ⟨r', hr', hin⟩

/-- A reference becomes the name of the stable view, if no other one is a part of it and none is a part of that
name. -/
theorem redirect_reference {r : List Char} (ht : t ∈ ts) (hr : r ∈ t.references)
    (honly : ∀ u ∈ ts, ∀ r' ∈ u.references, r' <:+: r → u = t ∧ r' = r)
    (hstable : ∀ u ∈ ts, ¬ u.OccursIn t.stableName) : redirect r ts = t.stableName := by
  induction ts with
  | nil => cases ht
  | cons u ts ih =>
    have honly' : ∀ v ∈ ts, ∀ r' ∈ v.references, r' <:+: r → v = t ∧ r' = r := fun v hv =>
      honly v (List.mem_cons_of_mem _ hv)
    have hstable' : ∀ v ∈ ts, ¬ v.OccursIn t.stableName := fun v hv =>
      hstable v (List.mem_cons_of_mem _ hv)
    rw [redirect_cons]
    by_cases hu : u = t
    · subst hu
      rw [redirectOne_reference hr (fun r' hr' hin => (honly u List.mem_cons_self r' hr' hin).2)
        (hstable u List.mem_cons_self)]
      exact redirect_of_not_occursIn hstable'
    · have hnot : ¬ u.OccursIn r := fun ⟨r', hr', hin⟩ => hu (honly u List.mem_cons_self r' hr' hin).1
      rw [redirectOne_of_not_occursIn hnot]
      exact ih ((List.mem_cons.mp ht).resolve_left (Ne.symm hu)) honly' hstable'

/-! ## The order of the tables -/

theorem ApartFrom.symm (h : t.ApartFrom u) : u.ApartFrom t := fun r hr r' hr' =>
  ⟨(h r' hr' r hr).1.symm, (h r' hr' r hr).2.2, (h r' hr' r hr).2.1⟩

/-- A step that can be exchanged with each of others can be exchanged with all of them. -/
theorem foldl_comm {α β : Type} {f : α → β → α} {g : α → α} {bs : List β}
    (h : ∀ b ∈ bs, ∀ a, g (f a b) = f (g a) b) (a : α) : g (bs.foldl f a) = bs.foldl f (g a) := by
  induction bs generalizing a with
  | nil => rfl
  | cons b bs ih =>
    rw [List.foldl_cons, List.foldl_cons, ih (fun b' hb' => h b' (List.mem_cons_of_mem _ hb')),
      h b List.mem_cons_self]

theorem redirectOne_comm (h : t.ApartFrom u) (s : List Char) :
    redirectOne (redirectOne s t) u = redirectOne (redirectOne s u) t := by
  rw [redirectOne_eq t, redirectOne_eq t]
  refine foldl_comm (g := fun s => redirectOne s u) (fun r hr s => ?_) s
  rw [redirectOne_eq u, redirectOne_eq u]
  refine (foldl_comm (g := fun s => replaceAll r t.stableName s) (fun r' hr' s => ?_) s).symm
  obtain ⟨hapart, hstable, hstable'⟩ := h r hr r' hr'
  exact replaceAll_comm hapart hstable hstable' s

/-- Tables that do not occur can be left out, if they do not come to occur. -/
theorem redirect_filter {run : List Char}
    (h : ∀ vs, vs <+: us → ∀ t ∈ us, ¬ t.OccursIn run → ¬ t.OccursIn (redirect run vs)) :
    redirect run us = redirect run (us.filter fun t => t.OccursIn run) := by
  induction us using List.reverseRecOn with
  | nil => rfl
  | append_singleton us t ih =>
    have hfront : ∀ vs, vs <+: us → ∀ t ∈ us, ¬ t.OccursIn run → ¬ t.OccursIn (redirect run vs) :=
      fun vs hvs u hu => h vs (hvs.trans (List.prefix_append _ _)) u (List.mem_append_left _ hu)
    rw [List.filter_append, redirect_append, redirect_append, ← ih hfront]
    by_cases ht : t.OccursIn run
    · rw [List.filter_cons_of_pos (by simpa using ht), List.filter_nil]
    · have hmade := h us (List.prefix_append _ _) t (by simp) ht
      rw [List.filter_cons_of_neg (by simpa using ht), List.filter_nil]
      exact redirectOne_of_not_occursIn hmade

/-- The order of the tables does not show in a settled run. -/
theorem redirect_perm {run : List Char} (hperm : us.Perm ts) (h : Settled ts run) :
    redirect run us = redirect run ts := by
  have hunmade {vs : List DerivedTable} (hvs : vs.Perm ts) :
      redirect run vs = redirect run (vs.filter fun t => t.OccursIn run) := by
    refine redirect_filter fun ws hws t ht => ?_
    exact h.unmade ws (hws.sublist.subperm.trans hvs.subperm) t (hvs.mem_iff.mp ht)
  rw [hunmade hperm, hunmade (List.Perm.refl ts)]
  refine (hperm.filter _).foldl_eq' (fun t ht u hu s => ?_) run
  have hmem {v : DerivedTable} (hv : v ∈ us.filter fun t => t.OccursIn run) :
      v ∈ ts ∧ v.OccursIn run :=
    ⟨hperm.mem_iff.mp (List.mem_filter.mp hv).1, by simpa using (List.mem_filter.mp hv).2⟩
  by_cases htu : t = u
  · rw [htu]
  · have hapart := h.apart t (hmem ht).1 u (hmem hu).1 htu (hmem ht).2 (hmem hu).2
    exact redirectOne_comm hapart s

/-- A table that is apart from another one does not come to occur when that one is redirected. -/
theorem not_occursIn_redirectOne (h : t.ApartFrom u) (hs : ¬ t.OccursIn s) :
    ¬ t.OccursIn (redirectOne s u) := by
  rw [redirectOne_eq]
  refine List.foldlRecOn (motive := fun s => ¬ t.OccursIn s) u.references _ hs fun s hs r' hr' => ?_
  rintro ⟨r, hr, hin⟩
  exact hs ⟨r, hr, infix_of_infix_replaceAll (reference_ne_nil hr') (h r hr r' hr').2.1 hin⟩

/-- Every run is settled for tables that are apart from one another. -/
theorem Settled.of_apart (h : ts.Pairwise ApartFrom) (run : List Char) : Settled ts run := by
  have : Std.Symm ApartFrom := ⟨fun _ _ h => h.symm⟩
  refine ⟨fun t ht u hu htu _ _ => h.forall ht hu htu, fun us hus t ht hrun => ?_⟩
  refine List.foldlRecOn (motive := fun s => ¬ t.OccursIn s) us _ hrun fun s hs u hu => ?_
  by_cases htu : t = u
  · rw [← htu, redirectOne_of_not_occursIn hs]
    exact hs
  · exact not_occursIn_redirectOne (h.forall ht (hus.subset hu) htu) hs

/-! ## Runs -/

theorem IsPlain.all_reference (h : t.IsPlain) {r : List Char} (hr : r ∈ t.references) :
    r.all isPathChar = true := by
  obtain ⟨name, hname, rfl⟩ := List.mem_map.mp hr
  have hall : name.all isPathChar = true := by
    have hmem := (List.mem_filter.mp hname).1
    rcases List.mem_cons.mp hmem with rfl | hmem
    · exact h.nameR_path
    · rw [List.mem_singleton.mp hmem]
      exact h.nameC_path
  have href : t.referenceTo name =
      (if t.project.isEmpty then [] else t.project ++ ['.']) ++ t.schema ++ '.' :: name := by
    unfold referenceTo
    simp only [h.quoteMark_eq, List.nil_append, List.append_nil]
  rw [href]
  exact all_parts (by decide) h.project_path h.schema_path hall

theorem mem_rules {e : Rule} :
    e ∈ ts.flatMap rules ↔ ∃ t ∈ ts, ∃ r ∈ t.references, e = ⟨r, t.stableName⟩ := by
  simp only [List.mem_flatMap, rules, List.mem_map, eq_comm (a := e)]

/-- Each run is redirected on its own, and what is between the runs stays. -/
theorem redirect_spaced (hts : ∀ t ∈ ts, t.IsPlain) {first : List Char}
    {rest : List (Char × List Char)} (hs : Separated isPathChar first rest) :
    redirect (spaced first rest) ts =
      spaced (redirect first ts) (rest.map fun e => (e.1, redirect e.2 ts)) := by
  have hsearch : Searches isPathChar (ts.flatMap rules) := by
    intro e he
    obtain ⟨t, ht, r, hr, rfl⟩ := mem_rules.mp he
    exact ⟨reference_ne_nil hr, (hts t ht).all_reference hr⟩
  have hnew : ∀ e ∈ ts.flatMap rules, e.new.all isPathChar = true := by
    intro e he
    obtain ⟨t, ht, r, -, rfl⟩ := mem_rules.mp he
    exact (hts t ht).stableName_path
  simp only [redirect_eq_foldl]
  exact foldl_replaceAll_runs hsearch hnew hs

/-- **Redirection by runs.** Each run of a query is redirected on its own. It stays if there is no reference in it,
and it becomes the name of a stable view if it is a reference to the table and nothing else is found. Where all runs
are settled, the tables can be taken in any order. -/
theorem redirect_runs (hts : ∀ t ∈ ts, t.IsPlain) {first : List Char}
    {rest : List (Char × List Char)} (hs : Separated isPathChar first rest) :
    redirect (spaced first rest) ts =
      spaced (redirect first ts) (rest.map fun e => (e.1, redirect e.2 ts)) ∧
    (∀ run ∈ first :: rest.map Prod.snd, (∀ t ∈ ts, ¬ t.OccursIn run) → redirect run ts = run) ∧
    (∀ t ∈ ts, ∀ run ∈ t.references,
      (∀ u ∈ ts, ∀ r ∈ u.references, r <:+: run → u = t ∧ r = run) →
      (∀ u ∈ ts, ¬ u.OccursIn t.stableName) → redirect run ts = t.stableName) ∧
    ∀ us, us.Perm ts → (∀ run ∈ first :: rest.map Prod.snd, Settled ts run) →
      redirect (spaced first rest) us = redirect (spaced first rest) ts := by
  refine ⟨redirect_spaced hts hs, fun _ _ => redirect_of_not_occursIn,
    fun t ht run => redirect_reference ht, fun us hperm hsettled => ?_⟩
  have hus : ∀ t ∈ us, t.IsPlain := fun t ht => hts t (hperm.mem_iff.mp ht)
  rw [redirect_spaced hts hs, redirect_spaced hus hs,
    redirect_perm hperm (hsettled first List.mem_cons_self)]
  refine congrArg _ (List.map_congr_left fun e he => ?_)
  rw [redirect_perm hperm (hsettled e.2 (List.mem_cons_of_mem _ (List.mem_map_of_mem he)))]

def days : DerivedTable where
  schema := "tmp".toList
  nameR := "LR$AB1_days".toList
  nameC := "LC$AB1_days".toList
  stableName := "tmp.AB_shop_days".toList

def users : DerivedTable where
  schema := "tmp".toList
  nameR := "LR$CD2_users".toList
  nameC := "LC$CD2_users".toList
  stableName := "tmp.CD_shop_users".toList

/-- A table whose references go on where those of the table of days end. -/
def dayParts : DerivedTable where
  schema := "tmp".toList
  nameR := "LR$AB1_days_parts".toList
  nameC := "LC$AB1_days_parts".toList
  stableName := "tmp.AB_shop_day_parts".toList

theorem isPlain_days : days.IsPlain := ⟨rfl, rfl, by decide, by decide, by decide, by decide⟩

theorem isPlain_users : users.IsPlain := ⟨rfl, rfl, by decide, by decide, by decide, by decide⟩

theorem isPlain_dayParts : dayParts.IsPlain := ⟨rfl, rfl, by decide, by decide, by decide, by decide⟩

/-- A reference to each table, one with a field behind it, and an alias, as runs. -/
def joinedRuns : List (Char × List Char) :=
  [(' ', "d".toList), (',', "tmp.LC$CD2_users.id".toList), ('=', "tmp.LR$CD2_users.id".toList)]

theorem redirect_runs_joined : (∀ t ∈ [days, users], t.IsPlain) ∧
    Separated isPathChar "tmp.LR$AB1_days".toList joinedRuns ∧
    redirect "tmp.LR$AB1_days".toList [days, users] = "tmp.AB_shop_days".toList ∧
    redirect (spaced "tmp.LR$AB1_days".toList joinedRuns) [users, days] =
      "tmp.AB_shop_days d,tmp.CD_shop_users.id=tmp.CD_shop_users.id".toList := by
  have hts : ∀ t ∈ [days, users], t.IsPlain := by
    intro t ht
    rcases List.mem_cons.mp ht with rfl | ht
    · exact isPlain_days
    · exact List.mem_singleton.mp ht ▸ isPlain_users
  have hs : Separated isPathChar "tmp.LR$AB1_days".toList joinedRuns := ⟨by decide, by decide⟩
  have hapart : [days, users].Pairwise ApartFrom :=
    List.pairwise_pair.mpr (by decide +kernel)
  obtain ⟨hruns, -, hreference, horder⟩ := redirect_runs hts hs
  refine ⟨hts, hs, hreference days (by decide) _ (by decide) (by decide +kernel) (by decide +kernel), ?_⟩
  rw [horder [users, days] (List.Perm.swap _ _ _) fun run _ => .of_apart hapart run, hruns]
  decide +kernel

/-- A run that is no reference can be changed, and the order of tables with different references can show. -/
theorem redirect_not_by_runs :
    (¬ ∀ (ts : List DerivedTable) (first : List Char) (rest : List (Char × List Char)),
      (∀ t ∈ ts, t.IsPlain) → Separated isPathChar first rest →
        ∃ f : List Char → List Char,
          (∀ run ∈ first :: rest.map Prod.snd, (∀ t ∈ ts, run ∉ t.references) → f run = run) ∧
          redirect (spaced first rest) ts = spaced (f first) (rest.map fun e => (e.1, f e.2))) ∧
    ¬ ∀ (ts us : List DerivedTable) (first : List Char) (rest : List (Char × List Char)),
      (∀ t ∈ ts, t.IsPlain) → Separated isPathChar first rest → (ts.flatMap references).Nodup →
        us.Perm ts → redirect (spaced first rest) us = redirect (spaced first rest) ts := by
  have hrun : Separated isPathChar "tmp.LR$AB1_days_parts".toList [] := ⟨by decide, by decide⟩
  constructor
  · intro h
    obtain ⟨f, hf, hredirect⟩ := h [days] _ [] (fun t ht => List.mem_singleton.mp ht ▸ isPlain_days) hrun
    rw [hf _ List.mem_cons_self (by decide)] at hredirect
    have hchanged : redirect "tmp.LR$AB1_days_parts".toList [days] ≠ "tmp.LR$AB1_days_parts".toList := by
      decide +kernel
    exact hchanged hredirect
  · intro h
    have hts : ∀ t ∈ [days, dayParts], t.IsPlain := by
      intro t ht
      rcases List.mem_cons.mp ht with rfl | ht
      · exact isPlain_days
      · exact List.mem_singleton.mp ht ▸ isPlain_dayParts
    have horder := h [days, dayParts] [dayParts, days] _ [] hts hrun (by decide) (List.Perm.swap _ _ _)
    revert horder
    decide +kernel

end QueryBlend.DerivedTable
