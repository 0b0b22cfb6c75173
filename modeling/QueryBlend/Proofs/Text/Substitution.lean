import QueryBlend.Proofs.Text.Forms
/-!
# Replacing one after the other and all at once

`replaceAll` puts one text in the place of another, and texts are replaced one after the other. What is
put in by one replacement can be found by the next, and a replacement can take away a part of what
another one searches for; so the order matters, and none of it need be what was meant: each text
replaced where it stands (`substitute`).

**Runs.** Cut a text at the characters outside of a class, and what is left between them are its runs
(`exists_separated`). A text of characters of the class that *stands alone* wherever it occurs is the
whole of a run. Then a replacement does no more than to rename runs (`substituteFrom_run`,
`substitute_spaced`), and it stays so for the replacements behind it, as long as none of the texts put
in has a part that is searched for.

* `foldl_replaceAll_eq_substitute`: under these conditions one after the other is all at once.
-/
namespace QueryBlend.Text

/-- A text to be searched for, and what is put in its place. -/
structure Rule where
  old : List Char
  new : List Char
  deriving DecidableEq, Repr

/-- The text with each text of a rule replaced where it stands, while `skip` characters of the last one
are still to be passed over. -/
def substituteFrom (rules : List Rule) : (skip : Nat) → List Char → List Char
  | _, [] => []
  | skip + 1, _ :: cs => substituteFrom rules skip cs
  | 0, c :: cs =>
    match rules.find? fun e => e.old.isPrefixOf (c :: cs) with
    | some e => e.new ++ substituteFrom rules (e.old.length - 1) cs
    | none => c :: substituteFrom rules 0 cs

/-- The text with each text of a rule replaced where it stands, from left to right. -/
def substitute (rules : List Rule) (s : List Char) : List Char := substituteFrom rules 0 s

/-- Wherever `old` occurs in `s`, the characters next to it are outside of the class. -/
def StandsAlone (p : Char → Bool) (old s : List Char) : Prop :=
  ∀ before behind, s = before ++ old ++ behind →
    (∀ c, before.getLast? = some c → p c = false) ∧ Stops p behind

/-- Whether `old` stands alone can be told from the places where it may occur. -/
theorem standsAlone_iff (p : Char → Bool) (old s : List Char) :
    StandsAlone p old s ↔ ∀ i < s.length + 1, old <+: s.drop i →
      Stops p (s.take i).reverse ∧ Stops p (s.drop (i + old.length)) := by
  have hlast (t : List Char) : (∀ c, t.getLast? = some c → p c = false) ↔ Stops p t.reverse := by
    rw [Stops, List.head?_reverse]
  constructor
  · rintro h i - ⟨behind, hb⟩
    have hs : s = s.take i ++ old ++ behind := by
      rw [List.append_assoc, hb, List.take_append_drop]
    have hdrop : s.drop (i + old.length) = behind := by
      rw [← List.drop_drop, ← hb, List.drop_left]
    rw [← hlast, hdrop]
    exact h _ _ hs
  · intro h before behind hs
    have hlt : before.length < s.length + 1 := by
      rw [hs, List.append_assoc, List.length_append]
      omega
    have hdrop : s.drop before.length = old ++ behind := by
      rw [hs, List.append_assoc, List.drop_left]
    have htake : s.take before.length = before := by
      rw [hs, List.append_assoc, List.take_left]
    have := h before.length hlt (hdrop ▸ List.prefix_append old behind)
    rwa [← List.drop_drop, hdrop, List.drop_left, htake, ← hlast] at this

instance (p : Char → Bool) (old s : List Char) : Decidable (StandsAlone p old s) :=
  decidable_of_iff _ (standsAlone_iff p old s).symm

/-- What the first rule for a whole text puts in its place. -/
def rename (rules : List Rule) (run : List Char) : List Char :=
  match rules.find? fun e => e.old == run with
  | some e => e.new
  | none => run

/-- No text of a rule is a part of the run, unless it is all of it. -/
def IsWhole (rules : List Rule) (run : List Char) : Prop :=
  ∀ e ∈ rules, e.old <:+: run → e.old = run

variable {p : Char → Bool} {rules : List Rule}

/-! ## Runs -/

/-- A run, and further ones with a character in front of each. -/
def spaced : (run : List Char) → List (Char × List Char) → List Char
  | run, [] => run
  | run, e :: rest => run ++ e.1 :: spaced e.2 rest

/-- The runs are of the class, and what is between them is not. -/
structure Separated (p : Char → Bool) (first : List Char) (rest : List (Char × List Char)) :
    Prop where
  first_all : first.all p = true
  rest_all : ∀ e ∈ rest, p e.1 = false ∧ e.2.all p = true

theorem exists_separated (p : Char → Bool) (s : List Char) :
    ∃ first rest, s = spaced first rest ∧ Separated p first rest := by
  induction s with
  | nil => exact ⟨[], [], rfl, rfl, fun e he => nomatch he⟩
  | cons c cs ih =>
    obtain ⟨first, rest, hs, hf, hr⟩ := ih
    cases hc : p c with
    | true =>
      refine ⟨c :: first, rest, ?_, ?_, hr⟩
      · rw [hs]
        cases rest <;> rfl
      · rw [List.all_cons, hc, hf, Bool.and_self]
    | false =>
      refine ⟨[], (c, first) :: rest, ?_, rfl, fun e he => ?_⟩
      · rw [hs]
        rfl
      · rcases List.mem_cons.mp he with rfl | he
        · exact ⟨hc, hf⟩
        · exact hr e he

theorem Separated.tail {first : List Char} {e : Char × List Char} {rest : List (Char × List Char)}
    (h : Separated p first (e :: rest)) : Separated p e.2 rest :=
  ⟨(h.rest_all e List.mem_cons_self).2, fun f hf => h.rest_all f (List.mem_cons_of_mem _ hf)⟩

theorem exists_around_run {first : List Char} {rest : List (Char × List Char)} {run : List Char}
    (h : run ∈ first :: rest.map Prod.snd) :
    ∃ before behind, spaced first rest = before ++ run ++ behind := by
  induction rest generalizing first with
  | nil =>
    cases List.mem_singleton.mp h
    exact ⟨[], [], by simp [spaced]⟩
  | cons e rest ih =>
    rcases List.mem_cons.mp h with rfl | h
    · exact ⟨[], e.1 :: spaced e.2 rest, rfl⟩
    · obtain ⟨before, behind, he⟩ := ih h
      refine ⟨first ++ e.1 :: before, behind, ?_⟩
      rw [spaced, he]
      simp only [List.append_assoc, List.cons_append]

/-- Texts that stand alone are whole runs. -/
theorem isWhole_of_standsAlone {s : List Char} (hs : ∀ e ∈ rules, StandsAlone p e.old s)
    {before run behind : List Char} (hrun : run.all p = true) (he : s = before ++ run ++ behind) :
    IsWhole rules run := by
  rintro e hm ⟨a, b, rfl⟩
  have halone := hs e hm (before ++ a) (b ++ behind) (by rw [he]; simp only [List.append_assoc])
  simp only [List.all_append, Bool.and_eq_true] at hrun
  have ha : a = [] := by
    rcases List.eq_nil_or_concat a with ha | ⟨init, c, rfl⟩
    · exact ha
    · have hc := halone.1 c (by simp)
      have hc' := List.all_eq_true.mp hrun.1.1 c (by simp)
      rw [hc] at hc'
      cases hc'
  have hb : b = [] := by
    cases b with
    | nil => rfl
    | cons c cs =>
      have hc := halone.2 c rfl
      have hc' := List.all_eq_true.mp hrun.2 c List.mem_cons_self
      rw [hc] at hc'
      cases hc'
  rw [ha, hb, List.nil_append, List.append_nil]

/-! ## One rule, and all at once -/

theorem replaceFrom_eq_substituteFrom (old new : List Char) (skip : Nat) (s : List Char) :
    replaceFrom old new skip s = substituteFrom [⟨old, new⟩] skip s := by
  induction s generalizing skip with
  | nil => cases skip <;> rfl
  | cons c cs ih =>
    cases skip with
    | succ skip => exact ih skip
    | zero =>
      rw [replaceFrom, substituteFrom, List.find?_cons]
      cases old.isPrefixOf (c :: cs) with
      | true => exact congrArg _ (ih _)
      | false => exact congrArg (c :: ·) (ih 0)

theorem replaceAll_eq_substitute (e : Rule) (s : List Char) :
    replaceAll e.old e.new s = substitute [e] s := replaceFrom_eq_substituteFrom _ _ 0 s

theorem substituteFrom_skip (rules : List Rule) (s t : List Char) :
    substituteFrom rules s.length (s ++ t) = substituteFrom rules 0 t := by
  induction s with
  | nil => rfl
  | cons c cs ih => exact ih

/-- What the rules search for is of the class. -/
def Searches (p : Char → Bool) (rules : List Rule) : Prop :=
  ∀ e ∈ rules, e.old ≠ [] ∧ e.old.all p = true

theorem substituteFrom_other (hp : Searches p rules) {c : Char} (hc : p c = false)
    (s : List Char) : substituteFrom rules 0 (c :: s) = c :: substituteFrom rules 0 s := by
  have hnone : (rules.find? fun e => e.old.isPrefixOf (c :: s)) = none := by
    rw [List.find?_eq_none]
    intro e he hpre
    obtain ⟨hne, hall⟩ := hp e he
    cases ho : e.old with
    | nil => exact hne ho
    | cons d ds =>
      rw [ho, List.isPrefixOf_iff_prefix, List.cons_prefix_cons] at hpre
      rw [ho, List.all_cons, hpre.1, hc] at hall
      cases hall
  rw [substituteFrom, hnone]

/-- A run without a part that is searched for stays. -/
theorem substituteFrom_free (hp : Searches p rules) {run tail : List Char}
    (hfree : ∀ e ∈ rules, ¬ e.old <:+: run) (ht : Stops p tail) :
    substituteFrom rules 0 (run ++ tail) = run ++ substituteFrom rules 0 tail := by
  induction run with
  | nil => rfl
  | cons c cs ih =>
    have hnone : (rules.find? fun e => e.old.isPrefixOf (c :: (cs ++ tail))) = none := by
      rw [List.find?_eq_none]
      intro e he hpre
      rw [List.isPrefixOf_iff_prefix, ← List.cons_append] at hpre
      exact hfree e he (prefix_run (hp e he).2 ht hpre).isInfix
    have hrest : ∀ e ∈ rules, ¬ e.old <:+: cs := fun e he hin =>
      hfree e he (List.infix_cons_iff.mpr (.inr hin))
    rw [List.cons_append, substituteFrom, hnone]
    exact congrArg _ (ih hrest)

/-- A run is renamed if it is searched for, and stays if not. -/
theorem substituteFrom_run (hp : Searches p rules) {run tail : List Char} (hw : IsWhole rules run)
    (ht : Stops p tail) :
    substituteFrom rules 0 (run ++ tail) = rename rules run ++ substituteFrom rules 0 tail := by
  unfold rename
  cases hf : rules.find? fun e => e.old == run with
  | none =>
    refine substituteFrom_free hp (fun e he hin => ?_) ht
    exact List.find?_eq_none.mp hf e he (beq_iff_eq.mpr (hw e he hin))
  | some e =>
    have heq : e.old = run := by
      have := List.find?_some hf
      exact beq_iff_eq.mp this
    have hfind : (rules.find? fun e => e.old.isPrefixOf (run ++ tail)) = some e := by
      rw [← hf, ← List.head?_filter, ← List.head?_filter]
      refine congrArg _ (List.filter_congr fun f hmem => ?_)
      rw [Bool.eq_iff_iff, List.isPrefixOf_iff_prefix, beq_iff_eq]
      constructor
      · exact fun hpre => hw f hmem (prefix_run (hp f hmem).2 ht hpre).isInfix
      · rintro rfl
        exact List.prefix_append _ _
    cases run with
    | nil => exact absurd heq (hp e (List.mem_of_find?_eq_some hf)).1
    | cons c cs =>
      rw [List.cons_append] at hfind ⊢
      rw [substituteFrom, hfind]
      simp only [heq, List.length_cons, Nat.add_sub_cancel, substituteFrom_skip]

theorem substitute_spaced (hp : Searches p rules) {first : List Char}
    {rest : List (Char × List Char)} (hs : Separated p first rest)
    (hw : ∀ run ∈ first :: rest.map Prod.snd, IsWhole rules run) :
    substitute rules (spaced first rest) =
      spaced (rename rules first) (rest.map fun e => (e.1, rename rules e.2)) := by
  unfold substitute
  induction rest generalizing first with
  | nil =>
    have := substituteFrom_run hp (hw first List.mem_cons_self) stops_nil
    rw [List.append_nil] at this
    rw [spaced, this]
    exact List.append_nil _
  | cons e rest ih =>
    have he := (hs.rest_all e List.mem_cons_self).1
    rw [spaced, substituteFrom_run hp (hw first List.mem_cons_self) (stops_cons he _),
      substituteFrom_other hp he, ih hs.tail fun run hr => hw run (List.mem_cons_of_mem _ hr)]
    rfl

/-! ## One after the other -/

theorem rename_singleton (e : Rule) (run : List Char) :
    rename [e] run = if e.old = run then e.new else run := by
  rw [rename, List.find?_cons]
  split
  · rename_i h
    split at h
    · rename_i hb
      cases h
      rw [if_pos (beq_iff_eq.mp hb)]
    · cases h
  · rename_i h
    split at h
    · cases h
    · rename_i hb
      rw [if_neg (beq_eq_false_iff_ne.mp hb)]

/-- Once a run is renamed, no other rule renames it again. -/
theorem rename_rename {e : Rule} (hclash : ∀ f ∈ rules, ¬ f.old <:+: e.new) (run : List Char) :
    rename rules (rename [e] run) = rename (e :: rules) run := by
  rw [rename_singleton]
  split
  · rename_i h
    have hnone : (rules.find? fun f => f.old == e.new) = none := by
      rw [List.find?_eq_none]
      intro f hf hb
      exact hclash f hf (beq_iff_eq.mp hb ▸ List.infix_refl _)
    rw [rename, hnone, rename, List.find?_cons, beq_iff_eq.mpr h]
  · rename_i h
    rw [rename, rename, List.find?_cons, beq_eq_false_iff_ne.mpr h]

theorem foldl_replaceAll_spaced (hp : Searches p rules) (hnew : ∀ e ∈ rules, e.new.all p = true)
    (hclash : ∀ e ∈ rules, ∀ f ∈ rules, ¬ f.old <:+: e.new) {first : List Char}
    {rest : List (Char × List Char)} (hs : Separated p first rest)
    (hw : ∀ run ∈ first :: rest.map Prod.snd, IsWhole rules run) :
    rules.foldl (fun s e => replaceAll e.old e.new s) (spaced first rest) =
      spaced (rename rules first) (rest.map fun e => (e.1, rename rules e.2)) := by
  induction rules generalizing first rest with
  | nil => simp [rename]
  | cons e rules ih =>
    have hmem : e ∈ e :: rules := List.mem_cons_self
    have hone : Searches p [e] := fun f hf => List.mem_singleton.mp hf ▸ hp e hmem
    have hclash' : ∀ f ∈ rules, ¬ f.old <:+: e.new := fun f hf =>
      hclash e hmem f (List.mem_cons_of_mem _ hf)
    have hall {run : List Char} (h : run.all p = true) : (rename [e] run).all p = true := by
      rw [rename_singleton]
      split
      · exact hnew e hmem
      · exact h
    have hwhole {run : List Char} (h : IsWhole (e :: rules) run) : IsWhole rules (rename [e] run) := by
      rw [rename_singleton]
      intro f hf
      split
      · exact fun hin => absurd hin (hclash' f hf)
      · exact h f (List.mem_cons_of_mem _ hf)
    rw [List.foldl_cons, replaceAll_eq_substitute, substitute_spaced hone hs
      fun run hr f hf => hw run hr f (List.mem_singleton.mp hf ▸ hmem)]
    rw [ih (fun f hf => hp f (List.mem_cons_of_mem _ hf))
      (fun f hf => hnew f (List.mem_cons_of_mem _ hf))
      (fun f hf g hg => hclash f (List.mem_cons_of_mem _ hf) g (List.mem_cons_of_mem _ hg))]
    · rw [rename_rename hclash', List.map_map]
      refine congrArg _ (List.map_congr_left fun f _ => ?_)
      exact congrArg _ (rename_rename hclash' f.2)
    · refine ⟨hall hs.first_all, fun f hf => ?_⟩
      obtain ⟨g, hg, rfl⟩ := List.mem_map.mp hf
      exact ⟨(hs.rest_all g hg).1, hall (hs.rest_all g hg).2⟩
    · intro run hr
      rw [List.map_map] at hr
      rcases List.mem_cons.mp hr with rfl | hr
      · exact hwhole (hw first List.mem_cons_self)
      · obtain ⟨g, hg, rfl⟩ := List.mem_map.mp hr
        exact hwhole (hw g.2 (List.mem_cons_of_mem _ (List.mem_map_of_mem hg)))

/-- **One after the other is all at once.** Where the texts that are searched for stand alone, and none
of them is a part of a text put in, the order of the replacements does not show. -/
theorem foldl_replaceAll_eq_substitute (hp : Searches p rules)
    (hnew : ∀ e ∈ rules, e.new.all p = true)
    (hclash : ∀ e ∈ rules, ∀ f ∈ rules, ¬ f.old <:+: e.new) {s : List Char}
    (hs : ∀ e ∈ rules, StandsAlone p e.old s) :
    rules.foldl (fun s e => replaceAll e.old e.new s) s = substitute rules s := by
  obtain ⟨first, rest, rfl, hsep⟩ := exists_separated p s
  have hw : ∀ run ∈ first :: rest.map Prod.snd, IsWhole rules run := by
    intro run hr
    obtain ⟨before, behind, he⟩ := exists_around_run hr
    refine isWhole_of_standsAlone hs ?_ he
    rcases List.mem_cons.mp hr with rfl | hr
    · exact hsep.first_all
    · obtain ⟨g, hg, rfl⟩ := List.mem_map.mp hr
      exact (hsep.rest_all g hg).2
  rw [foldl_replaceAll_spaced hp hnew hclash hsep hw, substitute_spaced hp hsep hw]

end QueryBlend.Text
