import QueryBlend.Proofs.Text.Places
/-!
# Parts across seams

A part of a text that is put together is a part of one piece, or it reaches over a seam. This module says
where it cannot.

* `infix_of_clashes`: a piece whose ends all *clash* with the part, so that none of them can start it, may
  be passed over.
* `infix_word_append_iff`: where a class ends within the part, it ends there in the text, too.
* `pair_infix_append_iff`: a part of two characters reaches over a seam in one way.
-/
namespace QueryBlend.Text

variable {α : Type} [DecidableEq α] {p : Char → Bool}

/-- Whether no end of `s` can start the part `w`, whatever follows. -/
def clashes (w s : List α) : Bool :=
  s.tails.all fun x => x.isEmpty || !(x.isPrefixOf w || w.isPrefixOf x)

theorem not_prefix_of_clashes {w s x : List α} (h : clashes w s = true) (hx : x <:+ s) (hne : x ≠ []) :
    ¬ x <+: w ∧ ¬ w <+: x := by
  have := List.all_eq_true.mp h x (List.mem_tails _ _ |>.mpr hx)
  simpa [hne, ← List.isPrefixOf_iff_prefix] using this

/-- What all ends of a piece clash with stands behind it. -/
theorem infix_of_clashes {w s t : List α} (h : clashes w s = true) (hw : w <:+: s ++ t) : w <:+: t := by
  by_cases hne : w = []
  · exact hne ▸ List.nil_infix
  rcases List.infix_append_iff_ne_nil.mp hw with ⟨a, b, rfl⟩ | hw | ⟨u, v, hu, -, rfl, hus, -⟩
  · have hclash := not_prefix_of_clashes h (x := w ++ b) ⟨a, by rw [List.append_assoc]⟩ (by simp [hne])
    exact absurd (List.prefix_append w b) hclash.2
  · exact hw
  · exact absurd (List.prefix_append u v) (not_prefix_of_clashes h hus hu).1

/-- A part that leaves a class once, in a text that leaves it once: both leave it at the same place. -/
theorem infix_word_append_iff {u x m n : List Char} (hu : u.all p = true) (hx : Stops p x) (hne : x ≠ [])
    (hm : m.all p = true) (hn : Stops p n) : u ++ x <:+: m ++ n ↔ u ++ x <:+: n ∨ (u <:+ m ∧ x <+: n) := by
  have hfirst {y z : List Char} (hy : Stops p (y ++ z)) (hall : y.all p = true) : y = [] := by
    cases y with
    | nil => rfl
    | cons c y =>
      have hc := hy c rfl
      rw [(List.all_eq_true.mp hall) c (by simp)] at hc
      cases hc
  constructor
  · intro h
    rcases List.infix_append_iff_ne_nil.mp h with ⟨a, b, rfl⟩ | h | ⟨u', v, -, hv, he, hum, hvn⟩
    · simp only [List.all_append, Bool.and_eq_true] at hm
      exact absurd (hfirst (z := []) (by rwa [List.append_nil]) hm.1.2.2) hne
    · exact .inl h
    · refine .inr ?_
      have hall : u'.all p = true := by
        obtain ⟨a, rfl⟩ := hum
        exact (Bool.and_eq_true_iff.mp (List.all_append ▸ hm)).2
      rcases List.append_eq_append_iff.mp he with ⟨y, rfl, rfl⟩ | ⟨y, rfl, rfl⟩
      · obtain rfl := hfirst hx (Bool.and_eq_true_iff.mp (List.all_append ▸ hall)).2
        exact ⟨by rwa [List.append_nil] at hum, hvn⟩
      · obtain ⟨r, rfl⟩ := hvn
        obtain rfl := hfirst (z := x ++ r) (by rwa [List.append_assoc] at hn)
          (Bool.and_eq_true_iff.mp (List.all_append ▸ hu)).2
        exact ⟨by rwa [List.append_nil], ⟨r, rfl⟩⟩
  · rintro (h | ⟨⟨a, rfl⟩, ⟨b, rfl⟩⟩)
    · exact h.trans (List.suffix_append m n).isInfix
    · exact ⟨a, b, by simp only [List.append_assoc]⟩

theorem pair_infix_append_iff {a b : α} {s t : List α} : [a, b] <:+: s ++ t ↔
    [a, b] <:+: s ∨ [a, b] <:+: t ∨ (s.getLast? = some a ∧ t.head? = some b) := by
  rw [List.infix_append_iff_ne_nil]
  refine or_congr_right (or_congr_right ⟨?_, ?_⟩)
  · rintro ⟨u, v, hu, hv, he, ⟨x, rfl⟩, ⟨y, rfl⟩⟩
    cases u with
    | nil => exact absurd rfl hu
    | cons c u =>
      cases u with
      | nil =>
        obtain ⟨rfl, rfl⟩ := List.cons.inj he
        exact ⟨List.getLast?_concat, rfl⟩
      | cons d u =>
        have hlength := congrArg List.length he
        have := List.length_pos_iff.mpr hv
        simp only [List.length_cons, List.length_append, List.length_nil] at hlength
        omega
  · rintro ⟨hs, ht⟩
    obtain ⟨x, rfl⟩ := List.getLast?_eq_some_iff.mp hs
    obtain ⟨y, rfl⟩ := List.head?_eq_some_iff.mp ht
    exact ⟨[a], [b], by simp, by simp, rfl, List.suffix_append _ _, ⟨y, rfl⟩⟩

/-! ## Letter case -/

theorem fold_table : (List.range 128).all (fun n =>
    fold (Char.ofNat n) == Char.ofNat n || isAsciiLetter (fold (Char.ofNat n))) = true := by
  decide +kernel

/-- Letter case changes letters only. -/
theorem fold_eq_or_letter (c : Char) : fold c = c ∨ isAsciiLetter (fold c) = true := by
  by_cases hc : c.toNat < 128
  · have := List.all_eq_true.mp fold_table c.toNat (by simpa using hc)
    simpa [Char.ofNat_toNat] using this
  · unfold fold
    split
    · exact .inr (by decide)
    · split
      · exact .inr (by decide)
      · exact .inl (lowerAscii_of_ge (Nat.le_of_not_lt hc))

theorem eq_of_fold_eq {c d : Char} (hd : isAsciiLetter d = false) (h : fold c = d) : c = d := by
  rcases fold_eq_or_letter c with hc | hc
  · exact hc.symm.trans h
  · rw [h, hd] at hc
    cases hc

theorem isBlank_fold (c : Char) : isBlank (fold c) = isBlank c := by
  rcases fold_eq_or_letter c with hc | hc
  · rw [hc]
  · have hcase : isBlank (fold c) = false := by
      cases hb : isBlank (fold c) with
      | false => rfl
      | true =>
        have := of_isBlank (p := (!isAsciiLetter ·)) (by decide +kernel) hb
        rw [hc] at this
        cases this
    rw [hcase, not_isBlank_of_letter hc]

/-- Letter case makes no difference to an end without letters. -/
theorem suffix_map_fold_iff {u s : List Char} (hu : u.all (!isAsciiLetter ·) = true)
    (hfold : u.map fold = u) : u <:+ s.map fold ↔ u <:+ s := by
  constructor
  · rintro ⟨a, ha⟩
    obtain ⟨s₁, s₂, rfl, -, hs₂⟩ := List.map_eq_append_iff.mp ha.symm
    have hsame : s₂.map fold = s₂ := by
      refine (List.map_congr_left fun c hc => ?_).trans (List.map_id s₂)
      rcases fold_eq_or_letter c with h | h
      · exact h
      · have hmem : fold c ∈ u := hs₂ ▸ List.mem_map_of_mem hc
        have := List.all_eq_true.mp hu _ hmem
        rw [h] at this
        cases this
    rw [hsame] at hs₂
    exact hs₂ ▸ List.suffix_append s₁ s₂
  · rintro ⟨a, rfl⟩
    rw [List.map_append, hfold]
    exact List.suffix_append _ _

/-! ## Mentions -/

theorem mentions_iff {w line : List Char} :
    mentions w line = true ↔ w.map fold <:+: line.map fold := hasPart_iff _ _

/-- In a line that starts with fixed words, goes on with names without characters outside of a class, and
ends in a note, words that leave the class are mentioned in the note or over its front. -/
theorem mentions_over_names_iff {w u x fixed names note : List Char} (hw : w.map fold = u ++ x)
    (hfixed : clashes (u ++ x) (fixed.map fold) = true) (hu : u.all p = true) (hx : Stops p x) (hne : x ≠ [])
    (hnames : (names.map fold).all p = true) (hnote : Stops p (note.map fold)) :
    mentions w (fixed ++ (names ++ note)) = true ↔
      mentions w note = true ∨ (u <:+ names.map fold ∧ x <+: note.map fold) := by
  rw [mentions_iff, mentions_iff, hw, List.map_append, List.map_append,
    ← infix_word_append_iff hu hx hne hnames hnote]
  exact ⟨infix_of_clashes hfixed, fun h => h.trans (List.suffix_append _ _).isInfix⟩

end QueryBlend.Text
