import QueryBlend.Proofs.Text.Occurrences
/-!
# What is ahead of a form

A form sees all of the text in front of it. `Ends f c` says that a character `c` ends all that `f` reads:
what is read in front of a `c` is read there whatever stands behind that `c`. A word ends before every
character that it is not made of, and so do the others; they may be put one behind the other (`Ends.seq`).
-/
namespace QueryBlend.Text.Form

/-- What the form reads in front of a `c` does not depend on what is behind it. -/
def Ends (f : Form) (c : Char) : Prop :=
  ∀ s t r, f (s ++ c :: t) = some r → ∃ r', r = r' ++ c :: t ∧ ∀ t', f (s ++ c :: t') = some (r' ++ c :: t')

variable {f g : Form} {c : Char} {p : Char → Bool}

theorem Ends.seq (hf : Ends f c) (hg : Ends g c) : Ends (f >=> g) c := by
  intro s t r hr
  obtain ⟨u, hu, hr⟩ := seq_eq_some_iff.mp hr
  obtain ⟨u', rfl, hf'⟩ := hf s t u hu
  obtain ⟨r', rfl, hg'⟩ := hg u' t r hr
  exact ⟨r', rfl, fun t' => seq_eq_some_iff.mpr ⟨_, hf' t', hg' t'⟩⟩

/-- Whether the form can be read in front of a `c` does not depend on what is behind it. -/
theorem Ends.isSome_eq (h : Ends f c) (s t t' : List Char) :
    (f (s ++ c :: t)).isSome = (f (s ++ c :: t')).isSome := by
  rw [Bool.eq_iff_iff, Option.isSome_iff_exists, Option.isSome_iff_exists]
  constructor
  · rintro ⟨r, hr⟩
    obtain ⟨r', -, hr'⟩ := h s t r hr
    exact ⟨_, hr' t'⟩
  · rintro ⟨r, hr⟩
    obtain ⟨r', -, hr'⟩ := h s t' r hr
    exact ⟨_, hr' t⟩

/-- What is taken in front of a character that is not taken. -/
theorem exists_rest {v s t r : List Char} (hv : v.all p = true) (hc : p c = false)
    (h : s ++ c :: t = v ++ r) : ∃ r', s = v ++ r' ∧ r = r' ++ c :: t := by
  obtain ⟨r', rfl⟩ := prefix_run hv (stops_cons hc t) ⟨r, h.symm⟩
  rw [List.append_assoc, List.append_cancel_left_eq] at h
  exact ⟨r', rfl, h.symm⟩

theorem ends_spelled {w : List Char} (hc : fold c ∉ w.map fold) : Ends (spelled w) c := by
  intro s t r hr
  obtain ⟨v, hv, hfold⟩ := spelled_eq_some_iff.mp hr
  have hall : v.all (· != c) = true := by
    rw [List.all_eq_true]
    intro d hd
    rw [bne_iff_ne]
    rintro rfl
    exact hc (hfold ▸ List.mem_map_of_mem hd)
  obtain ⟨r', rfl, rfl⟩ := exists_rest hall (by simp) hv
  exact ⟨r', rfl, fun t' => spelled_eq_some_iff.mpr ⟨v, by rw [List.append_assoc], hfold⟩⟩

theorem ends_word {w : String} (hc : fold c ∉ w.toList.map fold) : Ends (word w) c := ends_spelled hc

theorem ends_literal {w : String} (hc : c ∉ w.toList) : Ends (literal w) c := by
  intro s t r hr
  have hall : w.toList.all (· != c) = true :=
    List.all_eq_true.mpr fun d hd => bne_iff_ne.mpr fun he => hc (he ▸ hd)
  obtain ⟨r', rfl, rfl⟩ := exists_rest hall (by simp) ((behind?_eq_some_iff _ _ _).mp hr)
  exact ⟨r', rfl, fun t' => (behind?_eq_some_iff _ _ _).mpr (List.append_assoc _ _ _)⟩

theorem dropWhile_before (hc : p c = false) (s t : List Char) :
    (s ++ c :: t).dropWhile p = s.dropWhile p ++ c :: t := by
  induction s with
  | nil => exact List.dropWhile_cons_of_neg (by rw [hc]; exact Bool.false_ne_true)
  | cons d s ih =>
    rw [List.cons_append, List.dropWhile_cons, List.dropWhile_cons]
    split
    · exact ih
    · rfl

theorem ends_many (hc : p c = false) : Ends (many p) c := by
  intro s t r hr
  rw [many, dropWhile_before hc] at hr
  exact ⟨s.dropWhile p, (Option.some.inj hr).symm, fun t' => congrArg some (dropWhile_before hc s t')⟩

theorem ends_many1 (hc : p c = false) : Ends (many1 p) c := by
  intro s t r hr
  cases s with
  | nil =>
    rw [List.nil_append, many1, hc] at hr
    cases hr
  | cons d s =>
    rw [List.cons_append, many1] at hr
    split at hr
    · rename_i hd
      obtain ⟨r', hr', hs⟩ := ends_many hc s t r hr
      refine ⟨r', hr', fun t' => ?_⟩
      rw [List.cons_append, many1, if_pos hd]
      exact hs t'
    · cases hr

theorem ends_wordEnd (c : Char) : Ends wordEnd c := by
  intro s t r hr
  have hhead (t' : List Char) : (s ++ c :: t').head? = (s ++ c :: t).head? := by cases s <;> rfl
  rw [wordEnd] at hr
  split at hr
  · cases hr
  · rename_i hword
    refine ⟨s, (Option.some.inj hr).symm, fun t' => ?_⟩
    rw [wordEnd, hhead t', if_neg hword]

end QueryBlend.Text.Form
