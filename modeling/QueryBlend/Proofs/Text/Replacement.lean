import QueryBlend.Proofs.ListFacts
import QueryBlend.Proofs.Text.Substitution
/-!
# What a replacement finds and what it leaves

`replaceAll` goes over a text once, from left to right. What it does is told by three equations
(`replaceAll_nil`, `replaceAll_cons`, `replaceAll_append_self`): nothing is left to be done, or the text goes
on with a character that starts no occurrence, or with an occurrence.

**Texts that are apart.** Two texts meet where a character can belong to an occurrence of the one and to one of
the other: if one is a part of the other, or an end of one is a start of the other (`Meets`). Across a text
that is apart from what is searched for the search goes on as if it were not there
(`replaceAll_append_of_apart`). So a replacement that puts in such a text makes no new occurrence
(`infix_of_infix_replaceAll`), and two replacements that are apart can be made in either order
(`replaceAll_comm`).

**Runs.** What is searched for lies within one run of characters of its class, so each run is rewritten on its
own (`foldl_replaceAll_runs`).
-/
namespace QueryBlend.Text

variable {old new : List Char}

/-! ## One step -/

theorem replaceAll_nil : replaceAll old new [] = [] := rfl

theorem replaceAll_cons {c : Char} {s : List Char} (h : ¬ old <+: c :: s) :
    replaceAll old new (c :: s) = c :: replaceAll old new s := by
  rw [replaceAll, replaceFrom, if_neg (by rwa [List.isPrefixOf_iff_prefix])]
  rfl

theorem replaceFrom_skip (s t : List Char) :
    replaceFrom old new s.length (s ++ t) = replaceFrom old new 0 t := by
  rw [replaceFrom_eq_substituteFrom, substituteFrom_skip, ← replaceFrom_eq_substituteFrom]

theorem replaceAll_append_self (h : old ≠ []) (s : List Char) :
    replaceAll old new (old ++ s) = new ++ replaceAll old new s := by
  cases old with
  | nil => exact absurd rfl h
  | cons c cs =>
    have hpre : (c :: cs).isPrefixOf (c :: (cs ++ s)) = true :=
      List.isPrefixOf_iff_prefix.mpr (List.prefix_append (c :: cs) s)
    rw [replaceAll, List.cons_append, replaceFrom, if_pos hpre]
    simp only [List.length_cons, Nat.add_sub_cancel, replaceFrom_skip]
    rfl

theorem replaceAll_self (h : old ≠ []) : replaceAll old new old = new := by
  have hself : replaceAll old new (old ++ []) = new ++ replaceAll old new [] := replaceAll_append_self h []
  rwa [List.append_nil, replaceAll_nil, List.append_nil] at hself

/-- The induction over a text by the steps of a replacement. -/
theorem replaceAll_induction {motive : List Char → Prop} (h : old ≠ []) (nil : motive [])
    (found : ∀ s, motive s → motive (old ++ s))
    (cons : ∀ c s, ¬ old <+: c :: s → motive s → motive (c :: s)) (s : List Char) : motive s := by
  by_cases hpre : old <+: s
  · obtain ⟨t, rfl⟩ := hpre
    exact found t (replaceAll_induction h nil found cons t)
  · cases s with
    | nil => exact nil
    | cons c s => exact cons c s hpre (replaceAll_induction h nil found cons s)
termination_by s.length
decreasing_by
  · have := List.length_pos_of_ne_nil h
    subst_vars
    rw [List.length_append]
    omega
  · subst_vars
    exact Nat.lt_succ_self _

/-! ## Occurrences -/

theorem replaceAll_of_absent {s : List Char} (h : ¬ old <:+: s) : replaceAll old new s = s := by
  induction s with
  | nil => rfl
  | cons c s ih =>
    rw [List.infix_cons_iff, not_or] at h
    rw [replaceAll_cons h.1, ih h.2]

/-- Texts that do not occur are not replaced. -/
theorem foldl_of_absent {s : List Char} {olds : List (List Char)} (new : List Char)
    (h : ∀ old ∈ olds, ¬ old <:+: s) : olds.foldl (fun s old => replaceAll old new s) s = s := by
  induction olds with
  | nil => rfl
  | cons old olds ih =>
    rw [List.foldl_cons, replaceAll_of_absent (h old List.mem_cons_self)]
    exact ih fun o ho => h o (List.mem_cons_of_mem _ ho)

/-- A text that is itself one of those searched for is replaced, if it has no other one as a part. -/
theorem foldl_of_mem {s : List Char} {olds : List (List Char)} {new : List Char} (hs : s ∈ olds)
    (hne : s ≠ []) (honly : ∀ old ∈ olds, old <:+: s → old = s) (hnew : ∀ old ∈ olds, ¬ old <:+: new) :
    olds.foldl (fun s old => replaceAll old new s) s = new := by
  induction olds with
  | nil => cases hs
  | cons old olds ih =>
    have hnew' : ∀ o ∈ olds, ¬ o <:+: new := fun o ho => hnew o (List.mem_cons_of_mem _ ho)
    rw [List.foldl_cons]
    by_cases he : old = s
    · rw [he, replaceAll_self hne]
      exact foldl_of_absent new hnew'
    · have hnot : ¬ old <:+: s := fun hin => he (honly old List.mem_cons_self hin)
      rw [replaceAll_of_absent hnot]
      exact ih ((List.mem_cons.mp hs).resolve_left (Ne.symm he))
        (fun o ho => honly o (List.mem_cons_of_mem _ ho)) hnew'

/-- The first occurrence is replaced, and the search goes on behind it. -/
theorem replaceAll_first (ho : old ≠ []) {s : List Char} (h : old <:+: s) : ∃ u v, s = u ++ old ++ v ∧
    replaceAll old new s = u ++ new ++ replaceAll old new v := by
  induction s with
  | nil => exact absurd (List.infix_nil.mp h) ho
  | cons c s ih =>
    by_cases hpre : old <+: c :: s
    · obtain ⟨v, hv⟩ := hpre
      refine ⟨[], v, hv.symm, ?_⟩
      rw [← hv, replaceAll_append_self ho, List.nil_append]
    · obtain ⟨u, v, rfl, hr⟩ := ih ((List.infix_cons_iff.mp h).resolve_left hpre)
      refine ⟨c :: u, v, rfl, ?_⟩
      rw [replaceAll_cons hpre, hr]
      rfl

theorem length_le_replaceAll (ho : old ≠ []) (h : old.length ≤ new.length) (s : List Char) :
    s.length ≤ (replaceAll old new s).length := by
  induction s using replaceAll_induction ho with
  | nil => exact Nat.zero_le _
  | found s ih =>
    rw [replaceAll_append_self ho, List.length_append, List.length_append]
    exact Nat.add_le_add h ih
  | cons c s hpre ih =>
    rw [replaceAll_cons hpre]
    exact Nat.succ_le_succ ih

/-- A text that is itself put in stays if and only if what is searched for is no part of it, or all. -/
theorem replaceAll_eq_self_iff (ho : old ≠ []) (s : List Char) :
    replaceAll old s s = s ↔ (old <:+: s → old = s) := by
  constructor
  · intro hs hin
    obtain ⟨u, v, he, hr⟩ : ∃ u v, s = u ++ old ++ v ∧
        replaceAll old s s = u ++ s ++ replaceAll old s v := replaceAll_first ho hin
    have hlen : old.length ≤ s.length := hin.length_le
    have hv := length_le_replaceAll ho hlen v
    have hle := congrArg List.length (hr.symm.trans hs)
    have hse := congrArg List.length he
    simp only [List.length_append] at hle hse
    have hu : u = [] := List.length_eq_zero_iff.mp (by omega)
    have hv' : v = [] := List.length_eq_zero_iff.mp (by omega)
    rw [he, hu, hv', List.nil_append, List.append_nil]
  · intro h
    by_cases hin : old <:+: s
    · rw [h hin] at ho ⊢
      exact replaceAll_self ho
    · exact replaceAll_of_absent hin

/-! ## Texts that are apart -/

/-- `a` is a part of `b`, or an end of `a` is a start of `b`. -/
def Meets (a b : List Char) : Prop := a <:+: b ∨ ∃ s ∈ a.tails, s ≠ [] ∧ s <+: b

instance (a b : List Char) : Decidable (Meets a b) := inferInstanceAs (Decidable (_ ∨ _))

/-- Occurrences of the two texts share no characters, whatever the text they occur in. -/
def Apart (a b : List Char) : Prop := ¬ Meets a b ∧ ¬ Meets b a

instance (a b : List Char) : Decidable (Apart a b) := inferInstanceAs (Decidable (_ ∧ _))

variable {a b m : List Char}

theorem Apart.symm (h : Apart a b) : Apart b a := And.symm h

theorem Apart.ne_nil (h : Apart a b) : a ≠ [] := fun he => h.1 (.inl (he ▸ List.nil_infix))

/-- No occurrence starts in a text that is apart from it. -/
theorem Apart.not_prefix_append (h : Apart a m) {s : List Char} (hs : s <:+ m) (hne : s ≠ []) (t : List Char) :
    ¬ a <+: s ++ t := by
  intro hpre
  rcases List.prefix_or_prefix_of_prefix hpre (List.prefix_append s t) with ha | hs'
  · exact h.1 (.inl (ha.isInfix.trans hs.isInfix))
  · exact h.2 (.inr ⟨s, (List.mem_tails s m).mpr hs, hne, hs'⟩)

/-- No occurrence reaches into a text that is apart from it. -/
theorem Apart.prefix_left (h : Apart a m) {x t : List Char} (hpre : a <+: x ++ (m ++ t)) : a <+: x := by
  rcases List.prefix_or_prefix_of_prefix hpre (List.prefix_append x (m ++ t)) with hx | ⟨r, rfl⟩
  · exact hx
  · by_cases hr : r = []
    · rw [hr, List.append_nil]
    · rw [List.prefix_append_right_inj] at hpre
      rcases List.prefix_or_prefix_of_prefix hpre (List.prefix_append m t) with hrm | hmr
      · exact absurd (.inr ⟨r, (List.mem_tails r _).mpr (List.suffix_append x r), hr, hrm⟩) h.1
      · exact absurd (.inl (hmr.isInfix.trans (List.suffix_append x r).isInfix)) h.2

theorem Apart.infix_append (h : Apart a m) {t : List Char} (hin : a <:+: m ++ t) : a <:+: t := by
  suffices hsuffix : ∀ s, s <:+ m → a <:+: s ++ t → a <:+: t from hsuffix m (List.suffix_refl m) hin
  intro s hs hin
  induction s with
  | nil => exact hin
  | cons c s ih =>
    rw [List.cons_append, List.infix_cons_iff] at hin
    have hrest := (List.suffix_cons c s).trans hs
    exact ih hrest (hin.resolve_left (h.not_prefix_append hs (List.cons_ne_nil c s) t))

/-- The search goes on behind a text that is apart. -/
theorem replaceAll_append_of_apart (h : Apart old m) (t : List Char) :
    replaceAll old new (m ++ t) = m ++ replaceAll old new t := by
  suffices hsuffix : ∀ s, s <:+ m → replaceAll old new (s ++ t) = s ++ replaceAll old new t from
    hsuffix m (List.suffix_refl m)
  intro s hs
  induction s with
  | nil => rfl
  | cons c s ih =>
    have hpre : ¬ old <+: c :: (s ++ t) := h.not_prefix_append hs (List.cons_ne_nil c s) t
    rw [List.cons_append, replaceAll_cons hpre, ih ((List.suffix_cons c s).trans hs), List.cons_append]

/-- What stands at the front of a text after a replacement stood there before, if it is apart from what was
put in. -/
theorem prefix_of_prefix_replaceAll (ho : old ≠ []) (h : Apart a new) (s : List Char) :
    ∀ x, a <+: x ++ replaceAll old new s → a <+: x ++ s := by
  induction s using replaceAll_induction ho with
  | nil => exact fun x hx => hx
  | found s ih =>
    intro x hx
    rw [replaceAll_append_self ho] at hx
    exact (h.prefix_left hx).trans (List.prefix_append _ _)
  | cons c s hpre ih =>
    intro x hx
    rw [replaceAll_cons hpre, List.append_cons] at hx
    rw [List.append_cons]
    exact ih _ hx

/-- A replacement makes no occurrence of a text that is apart from what is put in. -/
theorem infix_of_infix_replaceAll (ho : old ≠ []) (h : Apart a new) {s : List Char}
    (hin : a <:+: replaceAll old new s) : a <:+: s := by
  induction s using replaceAll_induction ho with
  | nil => exact hin
  | found s ih =>
    rw [replaceAll_append_self ho] at hin
    exact (ih (h.infix_append hin)).trans (List.suffix_append old s).isInfix
  | cons c s hpre ih =>
    rw [replaceAll_cons hpre, List.infix_cons_iff] at hin
    rw [List.infix_cons_iff]
    exact hin.imp (prefix_of_prefix_replaceAll ho h s [c]) ih

/-- **Either order.** Two replacements can be exchanged if what they search for is apart, and from what the
other one puts in as well. -/
theorem replaceAll_comm {a' b' : List Char} (hab : Apart a b) (hab' : Apart a b') (hba' : Apart b a')
    (s : List Char) :
    replaceAll a a' (replaceAll b b' s) = replaceAll b b' (replaceAll a a' s) := by
  have ha := hab.ne_nil
  have hb := hab.symm.ne_nil
  by_cases hpa : a <+: s
  · obtain ⟨t, rfl⟩ := hpa
    rw [replaceAll_append_of_apart hab.symm, replaceAll_append_self ha, replaceAll_append_self ha,
      replaceAll_append_of_apart hba', replaceAll_comm hab hab' hba' t]
  by_cases hpb : b <+: s
  · obtain ⟨t, rfl⟩ := hpb
    rw [replaceAll_append_of_apart hab, replaceAll_append_self hb, replaceAll_append_self hb,
      replaceAll_append_of_apart hab', replaceAll_comm hab hab' hba' t]
  cases s with
  | nil => rfl
  | cons c s =>
    -- neither replacement makes an occurrence of the other text at `c`
    have hpa' : ¬ a <+: c :: replaceAll b b' s := fun h =>
      hpa (prefix_of_prefix_replaceAll hb hab' s [c] h)
    have hpb' : ¬ b <+: c :: replaceAll a a' s := fun h =>
      hpb (prefix_of_prefix_replaceAll ha hba' s [c] h)
    rw [replaceAll_cons hpb, replaceAll_cons hpa', replaceAll_cons hpa, replaceAll_cons hpb',
      replaceAll_comm hab hab' hba' s]
termination_by s.length
decreasing_by
  · have := List.length_pos_of_ne_nil ha
    subst_vars
    rw [List.length_append]
    omega
  · have := List.length_pos_of_ne_nil hb
    subst_vars
    rw [List.length_append]
    omega
  · subst_vars
    exact Nat.lt_succ_self _

/-! ## Runs -/

section

variable {p : Char → Bool} {rules : List Rule} {first : List Char} {rest : List (Char × List Char)}

theorem all_replaceAll (ho : old ≠ []) (hn : new.all p = true) {s : List Char} (hs : s.all p = true) :
    (replaceAll old new s).all p = true := by
  induction s using replaceAll_induction ho with
  | nil => rfl
  | found s ih =>
    rw [List.all_append, Bool.and_eq_true] at hs
    rw [replaceAll_append_self ho, List.all_append, hn, ih hs.2]
    rfl
  | cons c s hpre ih =>
    rw [List.all_cons, Bool.and_eq_true] at hs
    rw [replaceAll_cons hpre, List.all_cons, hs.1, ih hs.2]
    rfl

/-- An occurrence does not reach over the end of a run. -/
theorem replaceAll_append_of_stops (ho : old ≠ []) (hp : old.all p = true) {tail : List Char}
    (ht : Stops p tail) (run : List Char) :
    replaceAll old new (run ++ tail) = replaceAll old new run ++ replaceAll old new tail := by
  induction run using replaceAll_induction ho with
  | nil => rfl
  | found s ih =>
    rw [List.append_assoc, replaceAll_append_self ho, replaceAll_append_self ho, ih, List.append_assoc]
  | cons c s hpre ih =>
    have hpre' : ¬ old <+: c :: (s ++ tail) := fun h => hpre (prefix_run hp ht h)
    rw [List.cons_append, replaceAll_cons hpre', replaceAll_cons hpre, ih, List.cons_append]

theorem replaceAll_other (ho : old ≠ []) (hp : old.all p = true) {c : Char} (hc : p c = false)
    (s : List Char) : replaceAll old new (c :: s) = c :: replaceAll old new s := by
  refine replaceAll_cons fun hpre => ?_
  rw [← List.nil_append (c :: s)] at hpre
  exact ho (List.prefix_nil.mp (prefix_run hp (stops_cons hc s) hpre))

theorem replaceAll_spaced (ho : old ≠ []) (hp : old.all p = true) (hs : Separated p first rest) :
    replaceAll old new (spaced first rest) =
      spaced (replaceAll old new first) (rest.map fun e => (e.1, replaceAll old new e.2)) := by
  induction rest generalizing first with
  | nil => rfl
  | cons e rest ih =>
    have he := (hs.rest_all e List.mem_cons_self).1
    rw [spaced, replaceAll_append_of_stops ho hp (stops_cons he _), replaceAll_other ho hp he, ih hs.tail]
    rfl

/-- **Runs.** Replacements one after the other rewrite each run on its own, and nothing else. -/
theorem foldl_replaceAll_runs (hp : Searches p rules) (hnew : ∀ e ∈ rules, e.new.all p = true)
    (hs : Separated p first rest) :
    rules.foldl (fun s e => replaceAll e.old e.new s) (spaced first rest) =
      spaced (rules.foldl (fun s e => replaceAll e.old e.new s) first)
        (rest.map fun f => (f.1, rules.foldl (fun s e => replaceAll e.old e.new s) f.2)) := by
  induction rules generalizing first rest with
  | nil => simp
  | cons e rules ih =>
    obtain ⟨ho, hall⟩ := hp e List.mem_cons_self
    have hrun {run : List Char} (h : run.all p = true) := all_replaceAll (p := p) ho (hnew e List.mem_cons_self) h
    have hs' : Separated p (replaceAll e.old e.new first)
        (rest.map fun f => (f.1, replaceAll e.old e.new f.2)) := by
      refine ⟨hrun hs.first_all, fun f hf => ?_⟩
      obtain ⟨g, hg, rfl⟩ := List.mem_map.mp hf
      exact ⟨(hs.rest_all g hg).1, hrun (hs.rest_all g hg).2⟩
    rw [List.foldl_cons, replaceAll_spaced ho hall hs, ih (fun f hf => hp f (List.mem_cons_of_mem _ hf))
      (fun f hf => hnew f (List.mem_cons_of_mem _ hf)) hs', List.map_map]
    rfl

end

end QueryBlend.Text
